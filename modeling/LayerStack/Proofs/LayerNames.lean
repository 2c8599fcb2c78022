import LayerStack.Proofs.LayerNames.Keras

/-! No two layers of a generated program get the same name.  A name is made of parts with an
underscore between them: the name of the group, which no other group has, the number of the copy,
and what the helpers add.  No part holds an underscore, so that a name can be cut into its parts. -/

namespace LayerStack

namespace Decimal

theorem natText_inj {m n : Nat} (h : natText m = natText n) : m = n := by
  have hdigits := congrArg (Nat.ofDigitChars 10 ·.toList 0) h
  simpa [natText] using hdigits

theorem not_mem_natText (n : Nat) : '_' ∉ (natText n).toList :=
  not_mem_of_forall (bare_natText n) rfl

end Decimal

namespace Export.Keras

/-- A text that adds parts to a name, or nothing. -/
def IsTail (s : String) : Prop := ∀ c ∈ s.toList.head?, c = '_'

/-- The part before a tail can be told. -/
theorem eq_of_append_eq {a b s t : String} (ha : '_' ∉ a.toList) (hb : '_' ∉ b.toList)
    (hs : IsTail s) (ht : IsTail t) (h : a ++ s = b ++ t) : a = b := by
  have hstop : ∀ {u : String}, IsTail u → ∀ c ∈ u.toList.head?, (c != '_') = false := by
    intro u hu c hc
    simp [hu c hc]
  have hlist := congrArg String.toList h
  rw [String.toList_append, String.toList_append] at hlist
  have hleft := (takeWhile_append_eq (bne_of_not_mem ha) (hstop hs)).1
  have hright := (takeWhile_append_eq (bne_of_not_mem hb) (hstop ht)).1
  rw [hlist, hright] at hleft
  exact String.toList_inj.mp hleft.symm

/-- The same, after a text that both start with. -/
theorem natText_eq_of_append_eq {stem : String} {i j : Nat} {s t : String} (hs : IsTail s)
    (ht : IsTail t) (h : stem ++ Decimal.natText i ++ s = stem ++ Decimal.natText j ++ t) :
    i = j := by
  rw [String.append_assoc, String.append_assoc] at h
  exact Decimal.natText_inj (eq_of_append_eq (Decimal.not_mem_natText i) (Decimal.not_mem_natText j)
    hs ht (String.append_right_inj _ |>.mp h))

theorem mem_namesUnder {kind : Kind} {config : Config} {name given : String}
    (h : given ∈ namesUnder kind config name) : ∃ tail, IsTail tail ∧ given = name ++ tail := by
  have hstack : given ∈ (List.range (config.whole "num_layers").toNat).flatMap (fun j =>
      (name ++ "_l" ++ Decimal.natText j) ::
        if config.flag "bidirectional" then [name ++ "_bi" ++ Decimal.natText j] else []) →
      ∃ tail, IsTail tail ∧ given = name ++ tail := by
    intro hmem
    obtain ⟨j, -, hmem⟩ := List.mem_flatMap.mp hmem
    rcases List.mem_cons.mp hmem with rfl | hmem
    · exact ⟨"_l" ++ Decimal.natText j, by simp [IsTail], String.append_assoc⟩
    · split at hmem
      · obtain rfl := List.mem_singleton.mp hmem
        exact ⟨"_bi" ++ Decimal.natText j, by simp [IsTail], String.append_assoc⟩
      · simp at hmem
  cases kind with
  | transformer =>
    obtain ⟨suffix, hsuffix, rfl⟩ := List.mem_map.mp h
    refine ⟨suffix, ?_, rfl⟩
    revert suffix
    simp [IsTail]
  | lstm | gru => exact hstack h
  | _ => exact ⟨"", by simp [IsTail], by simpa [namesUnder] using h⟩

theorem nodup_flatMap_range {f : Nat → List String} (n : Nat) (hnodup : ∀ i, (f i).Nodup)
    (hindex : ∀ i j given, given ∈ f i → given ∈ f j → i = j) :
    ((List.range n).flatMap f).Nodup := by
  refine List.nodup_flatMap.mpr ⟨fun i _ => hnodup i, List.nodup_range.imp fun {i j} hne => ?_⟩
  exact fun given hi hj => hne (hindex i j given hi hj)

theorem nodup_stack (name : String) (layers : Nat) (both : Bool) :
    ((List.range layers).flatMap fun j =>
      (name ++ "_l" ++ Decimal.natText j) ::
        if both then [name ++ "_bi" ++ Decimal.natText j] else []).Nodup := by
  have hne : ∀ i j, name ++ "_l" ++ Decimal.natText i ≠ name ++ "_bi" ++ Decimal.natText j := by
    intro i j h
    have hlist := congrArg String.toList h
    simp at hlist
  have hinj : ∀ stem i j, stem ++ Decimal.natText i = stem ++ Decimal.natText j → i = j :=
    fun stem i j h => Decimal.natText_inj (String.append_right_inj stem |>.mp h)
  refine nodup_flatMap_range layers (fun j => ?_) fun i j given hi hj => ?_
  · cases both <;> simp [hne]
  · cases both with
    | false =>
      rw [List.mem_singleton.mp hi] at hj
      exact hinj _ _ _ (List.mem_singleton.mp hj)
    | true =>
      simp only [if_true, List.mem_cons, List.not_mem_nil, or_false] at hi hj
      rcases hi with rfl | rfl <;> rcases hj with h | h
      · exact hinj _ _ _ h
      · exact absurd h (hne _ _)
      · exact absurd h.symm (hne _ _)
      · exact hinj _ _ _ h

theorem nodup_namesUnder (kind : Kind) (config : Config) (name : String) :
    (namesUnder kind config name).Nodup := by
  cases kind with
  | transformer =>
    refine List.Nodup.map (fun s t h => ?_) (by decide)
    exact String.append_right_inj _ |>.mp h
  | lstm | gru => exact nodup_stack name _ _
  | _ => exact List.nodup_singleton name

theorem mem_groupNames {unit : NamedGroup} {given : String} (h : given ∈ groupNames unit) :
    ∃ tail, IsTail tail ∧ given = unit.name ++ tail := by
  rw [groupNames] at h
  split at h
  · obtain ⟨i, -, hmem⟩ := List.mem_flatMap.mp h
    obtain ⟨tail, -, rfl⟩ := mem_namesUnder hmem
    exact ⟨"_" ++ Decimal.natText i ++ tail, by simp [IsTail], by simp only [String.append_assoc]⟩
  · exact mem_namesUnder h

theorem nodup_groupNames (unit : NamedGroup) : (groupNames unit).Nodup := by
  rw [groupNames]
  split
  · refine nodup_flatMap_range _ (fun i => nodup_namesUnder _ _ _) fun i j given hi hj => ?_
    obtain ⟨s, hs, rfl⟩ := mem_namesUnder hi
    obtain ⟨t, ht, h⟩ := mem_namesUnder hj
    exact natText_eq_of_append_eq hs ht h
  · exact nodup_namesUnder _ _ _

theorem nodup_flatMap_groupNames {units : List NamedGroup}
    (hname : ∀ unit ∈ units, '_' ∉ unit.name.toList) (h : (units.map NamedGroup.name).Nodup) :
    (units.flatMap groupNames).Nodup := by
  refine List.nodup_flatMap.mpr ⟨fun unit _ => nodup_groupNames unit, ?_⟩
  have hpairs : units.Pairwise fun unit other => unit.name ≠ other.name := List.pairwise_map.mp h
  refine hpairs.imp_of_mem fun {unit other} hunit hother hne given hgiven hagain => ?_
  obtain ⟨s, hs, rfl⟩ := mem_groupNames hgiven
  obtain ⟨t, ht, heq⟩ := mem_groupNames hagain
  exact hne (eq_of_append_eq (hname unit hunit) (hname other hother) hs ht heq)

end Export.Keras

/-- The groups of any layers get distinct names.  A model of a session has a program that gives
names to its layers, and when it is run the layers of a group get the name of the group, numbered if
there are more of them, with what the helpers add for encoder blocks and recurrent stacks; no name
is given twice. -/
theorem layer_names_distinct :
    (∀ layers, ∃ units, NamedGroup.ofLayers layers = .ok units ∧
      (units.map NamedGroup.name).Nodup) ∧
    ∀ model : Model, model.Reachable → ∃ units source names,
      NamedGroup.ofLayers model.layers = .ok units ∧
      Program.ofLayers (.str Framework.tensorflow.name) model.layers =
        .ok ⟨.tensorflow, source⟩ ∧
      Export.Names.ofSource? source = some names ∧
      names = units.flatMap Export.Keras.groupNames ∧ names.Nodup := by
  refine ⟨fun layers => ?_, fun model h => ?_⟩
  · obtain ⟨units, hunits, -, hnames, -⟩ := NamedGroup.ofLayers_ok layers
    exact ⟨units, hunits, hnames ▸ NamedGroup.nodup_namesAfter [] _⟩
  · obtain ⟨units, hunits, -, hnodup, hsound⟩ := NamedGroup.ofLayers_sound h.configured
    obtain ⟨input, steps, hinput, hsteps, hreadable, hsource⟩ := Export.Keras.steps_ok hsound
    have hprogram : Program.ofLayers (.str Framework.tensorflow.name) model.layers =
        .ok ⟨.tensorflow, Export.Statement.programText (Export.Keras.program input steps)⟩ := by
      simp [Program.ofLayers, hunits, Framework.ofValue_name, Framework.source, hsource]
    have hword : ∀ unit ∈ units, '_' ∉ unit.name.toList :=
      fun unit hunit => not_mem_of_forall (hsound unit hunit).name rfl
    exact ⟨units, _, _, hunits, hprogram,
      Export.Keras.ofSource?_program hsound hinput hsteps hreadable, rfl,
      Export.Keras.nodup_flatMap_groupNames hword hnodup⟩

/-- A session that ends with a stack of two layers in both directions, a run of two encoder blocks,
a linear layer, and another encoder block. -/
def namedSession : List Edit := [
  .add (.str "lstm") none (some "a"),
  .update (some "a") "bidirectional" (.bool true),
  .update (some "a") "num_layers" (.int 2),
  .add (.str "transformer") none none,
  .add (.str "transformer") none none,
  .add (.str "linear") none none,
  .add (.str "transformer") none none]

def namedModel : Model := ((Workspace.start .counting).run namedSession).model

def namedLayers : List String :=
  ["lstm_l0", "lstm_bi0", "lstm_l1", "lstm_bi1"] ++
    (["transformer_0", "transformer_1"].flatMap fun name =>
      ["_mha", "_ln1", "_ffn1", "_ffn2", "_drop", "_ln2"].map (name ++ ·)) ++
    ["fc"] ++
    ["_mha", "_ln1", "_ffn1", "_ffn2", "_drop", "_ln2"].map ("transformer2" ++ ·)

theorem layer_names_distinct_namedModel :
    namedModel.Reachable ∧ ∃ units source names,
      NamedGroup.ofLayers namedModel.layers = .ok units ∧
      units.map NamedGroup.name = ["lstm", "transformer", "fc", "transformer2"] ∧
      Program.ofLayers (.str Framework.tensorflow.name) namedModel.layers =
        .ok ⟨.tensorflow, source⟩ ∧
      Export.Names.ofSource? source = some names ∧
      names = namedLayers ∧ names.Nodup := by
  have hreachable : namedModel.Reachable := ⟨.counting, namedSession, rfl⟩
  obtain ⟨units, source, names, hunits, hprogram, hread, hnames, hnodup⟩ :=
    layer_names_distinct.2 namedModel hreachable
  have hcomputed : (NamedGroup.ofLayers namedModel.layers).toOption.map (fun units =>
      (units.map NamedGroup.name, units.flatMap Export.Keras.groupNames)) =
      some (["lstm", "transformer", "fc", "transformer2"], namedLayers) := by decide +kernel
  rw [hunits] at hcomputed
  simp only [Except.toOption, Option.map_some, Option.some.injEq, Prod.mk.injEq] at hcomputed
  exact ⟨hreachable, units, source, names, hunits, hcomputed.1, hprogram, hread,
    hnames.trans hcomputed.2, hnodup⟩

end LayerStack
