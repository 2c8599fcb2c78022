import LayerStack.Proofs.Parameters

/-! Nothing that is computed from a model of a session ends in a fault: its summary in any shape,
the names and ranks of its groups, and its program for each framework.  What names no framework is
refused as that and as nothing else, unless it cannot be written. -/

namespace LayerStack

/-- In a table that finds everything under its own name, a name finds what has it. -/
theorem find?_name_eq_some_iff {α : Type} {all : List α} {name : α → String}
    (hself : ∀ a, all.find? (fun b => decide (name b = name a)) = some a) (s : String) (a : α) :
    all.find? (fun b => decide (name b = s)) = some a ↔ name a = s := by
  constructor
  · intro h
    simpa using List.find?_some h
  · rintro rfl
    exact hself a

/-- A value names what a table finds under a name exactly if it is the text of that name. -/
theorem Value.named?_eq_some_iff {α : Type} {find : String → Option α} {name : α → String}
    (hfind : ∀ s a, find s = some a ↔ name a = s) {value : Value} {a : α} :
    value.named? find = some a ↔ value = .str (name a) := by
  constructor
  · intro h
    cases value <;> simp [named?, Option.bind_eq_some_iff] at h
    next text =>
      obtain ⟨s, hs, hname⟩ := h
      rw [(hfind s a).mp hname, Text.string?_eq_some_iff.mp hs]
  · rintro rfl
    simp [(hfind _ a).mpr rfl]

namespace Framework

theorem ofName?_eq_some_iff (s : String) (framework : Framework) :
    ofName? s = some framework ↔ framework.name = s :=
  find?_name_eq_some_iff ofName?_name s framework

theorem named?_eq_some_iff {value : Value} {framework : Framework} :
    value.named? ofName? = some framework ↔ value = .str framework.name :=
  Value.named?_eq_some_iff ofName?_eq_some_iff

/-- A value that is the name of no framework is unknown. -/
theorem ofValue_of_ne {value : Value} (h : ∀ framework : Framework, value ≠ .str framework.name) :
    ofValue value = .error (.showing value (.unknownFramework value)) := by
  have hnone : value.named? ofName? = none :=
    Option.eq_none_iff_forall_ne_some.mpr fun framework hsome =>
      h framework (named?_eq_some_iff.mp hsome)
  rw [ofValue, hnone]

end Framework

/-- The program for configured layers in a framework. -/
theorem Program.ofLayers_ok {layers : List Layer} (h : ∀ layer ∈ layers, layer.Configured)
    (framework : Framework) :
    ∃ source, ofLayers (.str framework.name) layers = .ok ⟨framework, source⟩ := by
  obtain ⟨units, hunits, -, hnodup, hsound⟩ := NamedGroup.ofLayers_sound h
  obtain ⟨source, -, hsource, -⟩ := framework.source_reads hsound hnodup
  exact ⟨source, by simp [ofLayers, hunits, framework.ofValue_name, hsource]⟩

/-- Layers are grouped and named whatever they are, so that a framework that is unknown is what a
program is refused for. -/
theorem Program.ofLayers_of_ne {value : Value}
    (h : ∀ framework : Framework, value ≠ .str framework.name) (layers : List Layer) :
    ofLayers value layers = .error (.showing value (.unknownFramework value)) := by
  obtain ⟨units, hunits, -⟩ := NamedGroup.ofLayers_ok layers
  simp [ofLayers, hunits, Framework.ofValue_of_ne h, bind, Except.bind]

attribute [local instance] Machine.small

end LayerStack
