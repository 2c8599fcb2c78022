import LayerStack.Proofs.Parameters

/-! Helpers of generated programs.  The functions and classes that a program defines, and what the
lines of its forward pass call, are both read from its text: it defines the helpers that are called,
each once and before the model, and nothing else. -/

namespace LayerStack

namespace Export.Outline

/-- The name of the function or the class that a line defines. -/
def defined? (outline : Outline) : Option String :=
  ((outline.text.dropPrefix? "def ".toList).or (outline.text.dropPrefix? "class ".toList)).map
    fun rest => String.ofList (rest.takeWhile (· != '('))

/-- What the application on a line calls. -/
def called? (line : String) : Option String :=
  (application? line.toList).map fun application => String.ofList application.callee

end Export.Outline

open Export

/-- The functions and classes that stand in a program, in order. -/
def definedNames (source : String) : List String :=
  (Outline.ofText source).filterMap Outline.defined?

namespace Framework

/-- The helpers that programs may have, in the order in which they are written. -/
def helperNames : Framework → List String
  | .pytorch => []
  | .tensorflow => ["transformer_block", "recurrent_stack"]
  | .jax => ["TransformerBlock", "RecurrentStack"]

/-- What stands for the model in a program. -/
def modelName : Framework → String
  | .tensorflow => "build_model"
  | .pytorch | .jax => "LayerCalModel"

/-- What the names from the library of layers start with. -/
def library : Framework → String
  | .tensorflow => "layers."
  | .pytorch | .jax => "nn."

/-- The helper that stands for the layers of a kind, if the library has no layer for it. -/
def helper? (framework : Framework) (kind : Kind) : Option String :=
  if kind = .transformer then framework.helperNames[0]?
  else if kind.isRecurrent then framework.helperNames[1]?
  else none

/-- What the layers of a kind may call: the helper for the kind, or a name from the library. -/
structure Calls (framework : Framework) (kind : Kind) (callee : String) : Prop where
  name : '(' ∉ callee.toList
  helper : ∀ helper ∈ framework.helper? kind, callee = helper
  library : framework.helper? kind = none → framework.library.toList <+: callee.toList

instance (framework : Framework) (kind : Kind) (callee : String) :
    Decidable (framework.Calls kind callee) :=
  decidable_of_iff ('(' ∉ callee.toList ∧ (∀ helper ∈ framework.helper? kind, callee = helper) ∧
      (framework.helper? kind = none → framework.library.toList <+: callee.toList))
    ⟨fun h => ⟨h.1, h.2.1, h.2.2⟩, fun h => ⟨h.name, h.helper, h.library⟩⟩

end Framework

/-! ### What a line calls -/

theorem Export.Call.called?_line (call : Call) (hcallee : '(' ∉ call.callee.toList)
    {targets : String} (htargets : targets = "x = " ∨ targets = "x, _ = ") (after : String) :
    Outline.called? (targets ++ call.text ++ after) = some call.callee := by
  obtain ⟨rest, hrest, hline⟩ : ∃ rest : List Char, rest.head? = some '(' ∧
      (targets ++ call.text ++ after).toList = targets.toList ++ (call.callee.toList ++ rest) :=
    ⟨'(' :: (String.intercalate ", " (call.args.map Arg.text) ++ ")" ++ after).toList, rfl,
      by simp [Call.text]⟩
  rw [Outline.called?, hline, Outline.application?_append htargets hcallee hrest]
  simp

theorem Export.Torch.calls_constructor {kind : Kind} {rank : Option Rank} {config : Config}
    {call : Call} (h : constructor kind rank config = .ok call) :
    Framework.pytorch.Calls kind call.callee := by
  cases kind <;> simp [constructor] at h
  all_goals
    repeat' obtain ⟨_, -, h⟩ := h
    dsimp only
  case batchnorm => split <;> decide
  all_goals decide

theorem Export.Keras.calls_layer {kind : Kind} {config : Config} {name : String}
    {application : Application} (h : layer kind config name = .ok application) :
    Framework.tensorflow.Calls kind application.call.callee := by
  cases kind <;> simp [layer] at h
  all_goals
    repeat' obtain ⟨_, -, h⟩ := h
    dsimp only
    decide

theorem Export.Flax.calls_layer {kind : Kind} {config : Config} {name label : String}
    {application : Application} (h : layer kind config name label = .ok application) :
    Framework.jax.Calls kind application.call.callee := by
  cases kind <;> simp [layer, onValue] at h
  all_goals
    repeat' obtain ⟨_, -, h⟩ := h
    dsimp only
    decide

namespace Framework

theorem calls_rendering {framework : Framework} {unit : NamedGroup} {line : String}
    (h : framework.rendering unit = .ok line) :
    ∃ callee, Outline.called? line = some callee ∧ framework.Calls unit.group.kind callee := by
  cases framework with
  | pytorch =>
    simp only [rendering, bind_eq_ok, pure_eq_ok] at h
    obtain ⟨call, hcall, rfl⟩ := h
    have hcalls := Torch.calls_constructor hcall
    rw [Torch.Member.callLine_eq]
    exact ⟨_, call.called?_line hcalls.name (Torch.targets_eq _) _, hcalls⟩
  | tensorflow =>
    simp only [rendering, bind_eq_ok, pure_eq_ok] at h
    obtain ⟨application, happlication, rfl⟩ := h
    have hcalls := Keras.calls_layer happlication
    exact ⟨_, application.call.called?_line hcalls.name (.inl rfl) _, hcalls⟩
  | jax =>
    simp only [rendering, bind_eq_ok, pure_eq_ok] at h
    obtain ⟨application, happlication, rfl⟩ := h
    have hcalls := Flax.calls_layer happlication
    have hline : ∃ after, application.line = "x = " ++ application.call.text ++ after :=
      ⟨_, String.append_assoc⟩
    obtain ⟨after, hline⟩ := hline
    rw [hline]
    exact ⟨_, application.call.called?_line hcalls.name (.inl rfl) after, hcalls⟩

/-- The lines that are executed are those of the named groups. -/
theorem mem_executed {framework : Framework} {units : List NamedGroup} {lines : List String}
    (h : List.Forall₂ (fun unit line => framework.rendering unit = .ok line) units lines)
    (hcount : ∀ unit ∈ units, 1 ≤ unit.group.count) {line : String} :
    line ∈ ((units.zip lines).flatMap fun entry => List.replicate entry.1.group.count entry.2) ↔
      ∃ unit ∈ units, framework.rendering unit = .ok line := by
  induction h with
  | nil => simp
  | @cons unit first units lines hfirst _ ih =>
    rw [List.forall_mem_cons] at hcount
    have hpositive : unit.group.count ≠ 0 := Nat.ne_of_gt hcount.1
    rw [List.zip_cons_cons, List.flatMap_cons, List.mem_append, ih hcount.2, List.mem_replicate,
      List.exists_mem_cons_iff, hfirst, Except.ok.injEq]
    simp [hpositive, eq_comm]

/-! ### What a program defines -/

/-- The names that a program for layers of the given kinds defines. -/
def definedFor (framework : Framework) (kinds : List Kind) : List String :=
  (framework.helperNames.filter fun name =>
    kinds.any fun kind => decide (framework.helper? kind = some name)) ++ [framework.modelName]

theorem definedFor_eq {framework : Framework} {block stack : String}
    (hnames : framework.helperNames = [block, stack]) (hne : block ≠ stack) (kinds : List Kind) :
    framework.definedFor kinds =
      (if kinds.any fun kind => decide (kind = .transformer) then [block] else []) ++
        (if kinds.any Kind.isRecurrent then [stack] else []) ++ [framework.modelName] := by
  have hblock : ∀ kind, framework.helper? kind = some block ↔ kind = .transformer := by
    intro kind
    cases kind <;> simp [helper?, hnames, Kind.isRecurrent, hne.symm]
  have hstack : ∀ kind, framework.helper? kind = some stack ↔ kind.isRecurrent = true := by
    intro kind
    cases kind <;> simp [helper?, hnames, Kind.isRecurrent, hne]
  simp only [definedFor, hnames, List.filter_cons, List.filter_nil, hblock, hstack,
    Bool.decide_eq_true]
  split <;> split <;> rfl

theorem definedNames_torch {members : List Torch.Member} (h : ∀ member ∈ members, member.Readable)
    (kinds : List Kind) :
    definedNames (Statement.programText (Torch.program members)) = pytorch.definedFor kinds := by
  rw [definedNames, Statement.ofText_programText (by simp [Torch.program, Statement.heading])
    (Torch.isLine_program h)]
  rfl

theorem definedNames_keras {input : String} (hinput : OneLine input) {steps : List Keras.Step}
    (h : ∀ step ∈ steps, step.Readable) :
    definedNames (Statement.programText (Keras.program input steps)) =
      tensorflow.definedFor (steps.map Keras.Step.kind) := by
  rw [definedNames, Statement.ofText_programText (by simp [Keras.program, Statement.heading])
    (Keras.isLine_program hinput h), definedFor_eq rfl (by decide), List.any_map, List.any_map,
    Keras.program, Keras.helpers]
  simp only [Function.comp_def]
  split <;> split <;> rfl

theorem definedNames_flax {steps : List Flax.Step} (h : ∀ step ∈ steps, step.Readable) :
    definedNames (Statement.programText (Flax.program steps)) =
      jax.definedFor (steps.map Flax.Step.kind) := by
  rw [definedNames, Statement.ofText_programText (by simp [Flax.program, Statement.heading])
    (Flax.isLine_program h), definedFor_eq rfl (by decide), List.any_map, List.any_map,
    Flax.program, Flax.helpers]
  simp only [Function.comp_def]
  split <;> split <;> rfl

theorem definedNames_source {framework : Framework} {units : List NamedGroup}
    (h : ∀ unit ∈ units, unit.Sound) {source : String}
    (hsource : framework.source units = .ok source) :
    definedNames source = framework.definedFor (units.map fun unit => unit.group.kind) := by
  cases framework with
  | pytorch =>
    obtain ⟨members, -, hreadable, hprogram⟩ := Torch.members_ok h
    obtain rfl := Except.ok.inj (hprogram.symm.trans hsource)
    exact definedNames_torch hreadable _
  | tensorflow =>
    obtain ⟨input, steps, hline, hsteps, hreadable, hprogram⟩ := Keras.steps_ok h
    obtain rfl := Except.ok.inj (hprogram.symm.trans hsource)
    rw [definedNames_keras hline hreadable, map_eq_map_of_forall₂ hsteps fun unit step hstep =>
      (Keras.Step.ofUnit_eq_ok hstep).1.symm]
  | jax =>
    obtain ⟨steps, hsteps, hreadable, hprogram⟩ := Flax.steps_ok h
    obtain rfl := Except.ok.inj (hprogram.symm.trans hsource)
    rw [definedNames_flax hreadable, map_eq_map_of_forall₂ hsteps fun unit step hstep =>
      (Flax.Step.ofUnit_eq_ok hstep).1.symm]

/-! ### Definitions and calls -/

theorem mem_helperNames {framework : Framework} {kind : Kind} {helper : String}
    (h : framework.helper? kind = some helper) : helper ∈ framework.helperNames := by
  rw [helper?] at h
  split at h
  · exact List.mem_of_getElem? h
  · split at h
    · exact List.mem_of_getElem? h
    · simp at h

/-- The name of a helper is not one from the library. -/
theorem not_library_of_mem {framework : Framework} :
    ∀ helper ∈ framework.helperNames, ¬ framework.library.toList <+: helper.toList := by
  cases framework <;> decide

theorem Calls.eq_helper_iff {framework : Framework} {kind : Kind} {callee helper : String}
    (h : framework.Calls kind callee) (hhelper : helper ∈ framework.helperNames) :
    callee = helper ↔ framework.helper? kind = some helper := by
  cases hkind : framework.helper? kind with
  | none =>
    have hlibrary := h.library hkind
    simp only [reduceCtorEq, iff_false]
    rintro rfl
    exact not_library_of_mem _ hhelper hlibrary
  | some name => rw [h.helper name hkind, Option.some.injEq]

/-- A program defines the helpers that the lines of its forward pass call, then the model, and
nothing else. -/
theorem definedNames_eq {framework : Framework} {units : List NamedGroup}
    (h : ∀ unit ∈ units, unit.Sound) {source : String}
    (hsource : framework.source units = .ok source)
    {lines : List String}
    (hlines : ∀ line, line ∈ lines ↔ ∃ unit ∈ units, framework.rendering unit = .ok line)
    (hrendered : ∀ unit ∈ units, ∃ line, framework.rendering unit = .ok line) :
    definedNames source =
      (framework.helperNames.filter fun name => decide (name ∈ lines.filterMap Outline.called?)) ++
        [framework.modelName] := by
  rw [definedNames_source h hsource, definedFor, List.append_left_inj]
  refine List.filter_congr fun helper hhelper => ?_
  rw [Bool.eq_iff_iff, List.any_map, List.any_eq_true, decide_eq_true_eq, List.mem_filterMap]
  constructor
  · rintro ⟨unit, hunit, hkind⟩
    obtain ⟨line, hline⟩ := hrendered unit hunit
    obtain ⟨callee, hcallee, hcalls⟩ := calls_rendering hline
    have hsame := (hcalls.eq_helper_iff hhelper).mpr (of_decide_eq_true hkind)
    exact ⟨line, (hlines line).mpr ⟨unit, hunit, hline⟩, hsame ▸ hcallee⟩
  · rintro ⟨line, hmem, hcallee⟩
    obtain ⟨unit, hunit, hline⟩ := (hlines line).mp hmem
    obtain ⟨callee, hread, hcalls⟩ := calls_rendering hline
    have hsame : callee = helper := Option.some.inj (hread.symm.trans hcallee)
    exact ⟨unit, hunit, decide_eq_true ((hcalls.eq_helper_iff hhelper).mp hsame)⟩

end Framework

/-- A program for a model of a session defines the helpers that the lines of its forward pass call,
each of them once, then the model, and nothing else; and what the lines call is defined or comes
from the library. -/
theorem Model.Reachable.helpers_defined {model : Model} (h : model.Reachable)
    (framework : Framework) :
    ∃ source lines,
      Program.ofLayers (.str framework.name) model.layers = .ok ⟨framework, source⟩ ∧
      framework.forwardPass? source = some lines ∧
      definedNames source =
        (framework.helperNames.filter fun name =>
          decide (name ∈ lines.filterMap Outline.called?)) ++ [framework.modelName] ∧
      ∀ line ∈ lines, ∃ callee, Outline.called? line = some callee ∧
        (callee ∈ definedNames source ∨ framework.library.toList <+: callee.toList) := by
  obtain ⟨units, hunits, hgroups, hnodup, hsound⟩ := NamedGroup.ofLayers_sound h.configured
  obtain ⟨source, rendered, hsource, hreads⟩ := framework.source_reads hsound hnodup
  have hprogram : Program.ofLayers (.str framework.name) model.layers =
      .ok ⟨framework, source⟩ := by
    simp [Program.ofLayers, hunits, framework.ofValue_name, hsource]
  have hlines : ∀ line, line ∈ ((units.zip rendered).flatMap fun entry =>
        List.replicate entry.1.group.count entry.2) ↔
      ∃ unit ∈ units, framework.rendering unit = .ok line := fun line =>
    Framework.mem_executed hreads.rendered fun unit hunit => (hsound unit hunit).count
  have hrendered : ∀ unit ∈ units, ∃ line, framework.rendering unit = .ok line := fun unit hunit =>
    exists_of_mapM_eq_ok (mapM_eq_ok.mpr hreads.rendered) hunit
  have hdefinitions := Framework.definedNames_eq hsound hsource hlines hrendered
  refine ⟨source, _, hprogram, hreads.pass, hdefinitions, fun line hline => ?_⟩
  obtain ⟨unit, -, hunit⟩ := (hlines line).mp hline
  obtain ⟨callee, hcallee, hcalls⟩ := Framework.calls_rendering hunit
  refine ⟨callee, hcallee, ?_⟩
  cases hkind : framework.helper? unit.group.kind with
  | none => exact .inr (hcalls.library hkind)
  | some helper =>
    obtain rfl := hcalls.helper helper hkind
    have hcalled := List.mem_filterMap.mpr ⟨line, hline, hcallee⟩
    rw [hdefinitions, List.mem_append, List.mem_filter]
    exact .inl (.inl ⟨Framework.mem_helperNames hkind, decide_eq_true hcalled⟩)

theorem helpers_defined_countedModel :
    countedModel.Reachable ∧ ∀ framework : Framework, ∃ source lines,
      Program.ofLayers (.str framework.name) countedModel.layers = .ok ⟨framework, source⟩ ∧
      framework.forwardPass? source = some lines ∧
      definedNames source =
        (framework.helperNames.filter fun name =>
          decide (name ∈ lines.filterMap Outline.called?)) ++ [framework.modelName] ∧
      ∀ line ∈ lines, ∃ callee, Outline.called? line = some callee ∧
        (callee ∈ definedNames source ∨ framework.library.toList <+: callee.toList) :=
  have h : countedModel.Reachable := ⟨.counting, countedSession, rfl⟩
  ⟨h, h.helpers_defined⟩

end LayerStack
