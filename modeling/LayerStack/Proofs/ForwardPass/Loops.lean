import LayerStack.Export.Flax
import LayerStack.Export.Keras
import LayerStack.Proofs.Calls
import LayerStack.Proofs.ForwardPass.Reader

/-! The forward pass of a function that passes a value on line by line, with a loop for every group
of more than one layer. -/

namespace LayerStack.Export

/-- A line that is executed a number of times. -/
def passes (count : Nat) (line : String) : Statement :=
  if 1 < count then
    .block ("for i in range(" ++ Decimal.natText count ++ "):") [.line line]
  else .line line

/-- The lines of a line that is executed once or in a loop. -/
def passesLines (repeated : Bool) : Nat := if repeated then 2 else 1

theorem executed?_passes {count : Nat} (h : 1 ≤ count) (line : String) (depth : Nat) :
    ∃ outline, (passes count line).outline depth = [outline] ∧
      Outline.executed? outline = some (List.replicate count line.toList) := by
  rw [passes]
  split
  · have hcount := Outline.count?_natText "for i in range(" "):" count rfl
    refine ⟨_, rfl, ?_⟩
    simp only [Outline.executed?, Statement.outlineAll, Statement.outline, List.append_nil,
      hcount]
    simp [Outline.executedAll?, Outline.executed?]
  · have hone : count = 1 := by omega
    exact ⟨_, rfl, by rw [hone]; rfl⟩

theorem height_passes (count : Nat) (line : String) :
    (passes count line).height = passesLines (decide (1 < count)) := by
  rw [passes, passesLines]
  split
  · simp_all [Statement.height, Statement.heightAll]
  · simp_all [Statement.height]

theorem isLine_passes {line : String} (h : IsLine line) (count : Nat) :
    ∀ text ∈ (passes count line).texts, IsLine text := by
  have hloop : IsLine "for i in range(" := isLine_ofList rfl rfl
  have hcount := (Decimal.bare_natText count).oneLine
  rw [passes]
  split
  · simp only [Statement.texts, Statement.textsAll, List.append_nil, List.forall_mem_cons]
    exact ⟨(hloop.append hcount).append (by decide), h, by simp⟩
  · simpa [Statement.texts] using h

section

variable {α : Type} {steps : List α} (count : α → Nat) (line : α → String)

/-- Lines that pass the value on are executed in order, each as often as it counts. -/
theorem executedAll?_passes (h : ∀ step ∈ steps, 1 ≤ count step) (depth : Nat) :
    Outline.executedAll? (Statement.outlineAll depth
        (steps.map fun step => passes (count step) (line step))) =
      some (steps.flatMap fun step => List.replicate (count step) (line step).toList) := by
  induction steps with
  | nil => rfl
  | cons step rest ih =>
    rw [List.forall_mem_cons] at h
    obtain ⟨outline, houtline, hread⟩ := executed?_passes h.1 (line step) depth
    rw [List.map_cons, Statement.outlineAll, houtline, List.singleton_append, Outline.executedAll?,
      hread, ih h.2]
    rfl

theorem isReturn_passes (h : ∀ step ∈ steps, (line step).toList.head? = some 'x') (depth : Nat) :
    ∀ outline ∈ Statement.outlineAll depth
      (steps.map fun step => passes (count step) (line step)), outline.isReturn = false := by
  intro outline houtline
  rw [Statement.outlineAll_eq, List.flatMap_map] at houtline
  obtain ⟨step, hstep, hmem⟩ := List.mem_flatMap.mp houtline
  rw [passes] at hmem
  split at hmem
  · obtain rfl := List.mem_singleton.mp hmem
    exact Outline.isReturn_eq_false 'f' (by simp [Outline.text]) (by decide)
  · obtain rfl := List.mem_singleton.mp hmem
    exact Outline.isReturn_eq_false 'x' (h step hstep) (by decide)

theorem beforeReturn?_passes (h : ∀ step ∈ steps, (line step).toList.head? = some 'x') (depth : Nat)
    (last : String) (hlast : "return ".toList.isPrefixOf last.toList = true) :
    Outline.beforeReturn? (Statement.outlineAll depth
        (steps.map (fun step => passes (count step) (line step)) ++ [.line last])) =
      some (Statement.outlineAll depth
        (steps.map fun step => passes (count step) (line step))) := by
  rw [Statement.outlineAll_append]
  exact Outline.beforeReturn?_append (isReturn_passes count line h depth) hlast

theorem isLine_passesAll (h : ∀ step ∈ steps, IsLine (line step)) :
    ∀ text ∈ Statement.textsAll (steps.map fun step => passes (count step) (line step)),
      IsLine text :=
  Statement.isLine_of_mem_textsAll_map fun step hstep => isLine_passes (h step hstep) (count step)

end

theorem heightAll_passes {α : Type} (steps : List α) (count : α → Nat) (line : α → String) :
    Statement.heightAll (steps.map fun step => passes (count step) (line step)) =
      (steps.map fun step => passesLines (decide (1 < count step))).sum := by
  simp only [Statement.heightAll_eq, List.map_map, Function.comp_def, height_passes]

/-- A helper that is written only where it is used, with two blank lines after it. -/
theorem isLine_helper {c : Prop} [Decidable c] {helper : Statement}
    (h : ∀ text ∈ helper.texts, IsLine text) :
    ∀ text ∈ Statement.textsAll (if c then [helper, .blank, .blank] else []), IsLine text := by
  split
  · simpa [Statement.textsAll, Statement.texts] using h
  · simp [Statement.textsAll]

/-- The lines of helpers, given those of an encoder block and of a recurrent stack. -/
def helperLines (block stack : Nat) (shapes : List (Kind × Bool)) : Nat :=
  (if shapes.any fun shape => decide (shape.1 = .transformer) then block else 0) +
    if shapes.any fun shape => shape.1.isRecurrent then stack else 0

/-! ### A function that builds a model -/

namespace Keras

theorem statement_eq (steps : List Step) :
    steps.map Step.statement = steps.map fun step => passes step.count step.application.line := by
  simp [Step.statement, Step.repeated, passes]

theorem head?_line (application : Application) : application.line.toList.head? = some 'x' := by
  simp [Application.line]

theorem under?_build (input : String) (steps : List Step) :
    Outline.under? ["def build_model():"] (Statement.outlineAll 0 (program input steps)) =
      some (.node 4 ("inputs = tf.keras.Input(" ++ input ++ ")").toList [] ::
        .node 4 "x = inputs".toList [] :: Statement.outlineAll 1 (steps.map Step.statement ++
          [.line "return tf.keras.Model(inputs, x, name=\"layercal_model\")"])) := by
  rw [program, helpers]
  split <;> split <;> rfl

/-- What follows the line that starts from the input. -/
theorem dropWhile_inputs (input : String) (rest : List Outline) :
    (Outline.node 4 ("inputs = tf.keras.Input(" ++ input ++ ")").toList [] ::
        .node 4 "x = inputs".toList [] :: rest).dropWhile
          (fun outline => decide (outline.text ≠ "x = inputs".toList)) =
      .node 4 "x = inputs".toList [] :: rest := by
  rw [List.dropWhile_cons_of_pos (by simp [Outline.text]),
    List.dropWhile_cons_of_neg (by simp [Outline.text])]

/-- A step that can be read back. -/
structure Step.Readable (step : Step) : Prop where
  line : IsLine step.application.line
  count : 1 ≤ step.count

theorem isLine_transformerBlock : ∀ text ∈ transformerBlock.texts, IsLine text := by
  simp only [transformerBlock, Statement.texts, Statement.textsAll, List.cons_append,
    List.nil_append, List.append_nil, List.forall_mem_cons, List.not_mem_nil, false_imp_iff,
    implies_true, and_true]
  and_intros
  all_goals first
    | exact isLine_ofList rfl rfl
    | exact IsLine.append (isLine_ofList rfl rfl) (oneLine_ofList rfl)

theorem isLine_recurrentStack : ∀ text ∈ recurrentStack.texts, IsLine text := by
  simp only [recurrentStack, Statement.texts, Statement.textsAll, List.cons_append,
    List.nil_append, List.append_nil, List.forall_mem_cons, List.not_mem_nil, false_imp_iff,
    implies_true, and_true]
  and_intros <;> exact isLine_ofList rfl rfl

theorem isLine_program {input : String} (hinput : OneLine input) {steps : List Step}
    (h : ∀ step ∈ steps, step.Readable) :
    ∀ text ∈ Statement.textsAll (program input steps), IsLine text := by
  have hinput : IsLine ("inputs = tf.keras.Input(" ++ input ++ ")") :=
    IsLine.append (IsLine.append (isLine_ofList rfl rfl) hinput) (oneLine_ofList rfl)
  have hsteps := isLine_passesAll (fun step => step.count) (fun step => step.application.line)
    fun step hstep => (h step hstep).line
  rw [← statement_eq] at hsteps
  have hhelpers : ∀ text ∈ Statement.textsAll (helpers steps), IsLine text := by
    rw [helpers, Statement.textsAll_append, List.forall_mem_append]
    exact ⟨isLine_helper isLine_transformerBlock, isLine_helper isLine_recurrentStack⟩
  simp only [program, Statement.textsAll_append, List.forall_mem_append]
  refine ⟨⟨⟨Statement.isLine_heading (isLine_ofList rfl rfl), ?_⟩, hhelpers⟩, ?_⟩
  · simp only [Statement.textsAll, Statement.texts, List.cons_append, List.nil_append,
      List.forall_mem_cons]
    exact ⟨isLine_ofList rfl rfl, isLine_ofList rfl rfl, by simp⟩
  simp only [Statement.textsAll, Statement.texts, Statement.textsAll_append, List.nil_append,
    List.cons_append, List.append_nil, List.forall_mem_append, List.forall_mem_cons]
  exact ⟨isLine_ofList rfl rfl, hinput, isLine_ofList rfl rfl,
    ⟨hsteps, isLine_ofList rfl rfl, by simp⟩, isLine_ofList rfl rfl, isLine_ofList rfl rfl, by simp⟩

theorem height_program (input : String) (steps : List Step) :
    Statement.heightAll (program input steps) =
      17 + helperLines 11 9 (steps.map fun step => (step.kind, step.repeated)) +
        (steps.map fun step => passesLines step.repeated).sum := by
  have hhelpers : Statement.heightAll (helpers steps) =
      helperLines 11 9 (steps.map fun step => (step.kind, step.repeated)) := by
    simp only [helpers, helperLines, List.any_map, Function.comp_def, Statement.heightAll_append]
    split <;> split <;> rfl
  have hsteps := heightAll_passes steps (fun step => step.count) (fun step => step.application.line)
  rw [← statement_eq] at hsteps
  simp only [program, Statement.heading, Statement.heightAll, Statement.height, List.cons_append,
    List.nil_append, Statement.heightAll_append, hhelpers, hsteps, Step.repeated]
  omega

/-- Reading the forward pass gives the line of every step as often as it counts, in order. -/
theorem kerasPass?_program {input : String} (hinput : OneLine input) {steps : List Step}
    (h : ∀ step ∈ steps, step.Readable) :
    Outline.kerasPass? (Outline.ofText (Statement.programText (program input steps))) =
      some (steps.flatMap fun step =>
        List.replicate step.count step.application.line.toList) := by
  have hne : program input steps ≠ [] := by simp [program, Statement.heading]
  have hbody := beforeReturn?_passes (fun step : Step => step.count)
    (fun step => step.application.line) (fun step (_ : step ∈ steps) => head?_line step.application)
    1 "return tf.keras.Model(inputs, x, name=\"layercal_model\")" (by decide)
  have hread := executedAll?_passes (fun step : Step => step.count)
    (fun step => step.application.line) (fun step hstep => (h step hstep).count) 1
  rw [← statement_eq] at hbody hread
  rw [Statement.ofText_programText hne (isLine_program hinput h), Outline.kerasPass?, under?_build]
  simp only [Option.bind_eq_bind, Option.bind_some, dropWhile_inputs, hbody, hread]

theorem Step.ofUnit_eq_ok {unit : NamedGroup} {step : Step} (h : ofUnit unit = .ok step) :
    step.kind = unit.group.kind ∧ step.count = unit.group.count ∧
      layer unit.group.kind unit.group.config
        (if unit.repeated then indexedName unit.name "i" else quotedName unit.name) =
          .ok step.application := by
  simp only [ofUnit, bind_eq_ok, pure_eq_ok] at h
  obtain ⟨application, happlication, rfl⟩ := h
  exact ⟨rfl, rfl, happlication⟩

end Keras

/-! ### The call of a module -/

namespace Flax

theorem statement_eq (steps : List Step) :
    steps.map Step.statement = steps.map fun step => passes step.count step.application.line := by
  simp [Step.statement, Step.repeated, passes]

theorem head?_line (application : Application) : application.line.toList.head? = some 'x' := by
  simp [Application.line]

theorem under?_call (steps : List Step) :
    Outline.under?
        ["class LayerCalModel(nn.Module):", "def __call__(self, x, train: bool = False):"]
        (Statement.outlineAll 0 (program steps)) =
      some (Statement.outlineAll 2 (steps.map Step.statement ++ [.line "return x"])) := by
  rw [program, helpers]
  split <;> split <;> rfl

/-- A step that can be read back. -/
structure Step.Readable (step : Step) : Prop where
  line : IsLine step.application.line
  count : 1 ≤ step.count

theorem isLine_transformerBlock : ∀ text ∈ transformerBlock.texts, IsLine text := by
  simp only [transformerBlock, Statement.texts, Statement.textsAll, List.cons_append,
    List.nil_append, List.append_nil, List.forall_mem_cons, List.not_mem_nil, false_imp_iff,
    implies_true, and_true]
  and_intros
  all_goals first
    | exact isLine_ofList rfl rfl
    | exact IsLine.append (isLine_ofList rfl rfl) (oneLine_ofList rfl)

theorem isLine_recurrentStack : ∀ text ∈ recurrentStack.texts, IsLine text := by
  simp only [recurrentStack, Statement.texts, Statement.textsAll, List.cons_append,
    List.nil_append, List.append_nil, List.forall_mem_cons, List.not_mem_nil, false_imp_iff,
    implies_true, and_true]
  and_intros
  all_goals first
    | exact isLine_ofList rfl rfl
    | exact IsLine.append (isLine_ofList rfl rfl) (oneLine_ofList rfl)

theorem isLine_program {steps : List Step} (h : ∀ step ∈ steps, step.Readable) :
    ∀ text ∈ Statement.textsAll (program steps), IsLine text := by
  have hsteps := isLine_passesAll (fun step => step.count) (fun step => step.application.line)
    fun step hstep => (h step hstep).line
  rw [← statement_eq] at hsteps
  have hhelpers : ∀ text ∈ Statement.textsAll (helpers steps), IsLine text := by
    rw [helpers, Statement.textsAll_append, List.forall_mem_append]
    exact ⟨isLine_helper isLine_transformerBlock, isLine_helper isLine_recurrentStack⟩
  simp only [program, Statement.textsAll_append, List.forall_mem_append]
  refine ⟨⟨⟨Statement.isLine_heading (isLine_ofList rfl rfl), ?_⟩, hhelpers⟩, ?_⟩
  · simp only [Statement.textsAll, Statement.texts, List.cons_append, List.nil_append,
      List.forall_mem_cons]
    exact ⟨isLine_ofList rfl rfl, isLine_ofList rfl rfl, isLine_ofList rfl rfl, by simp⟩
  simp only [Statement.textsAll, Statement.texts, Statement.textsAll_append, List.nil_append,
    List.cons_append, List.append_nil, List.forall_mem_append, List.forall_mem_cons]
  exact ⟨isLine_ofList rfl rfl, isLine_ofList rfl rfl, isLine_ofList rfl rfl,
    ⟨hsteps, isLine_ofList rfl rfl, by simp⟩, isLine_ofList rfl rfl, isLine_ofList rfl rfl,
    isLine_ofList rfl rfl, isLine_ofList rfl rfl, isLine_ofList rfl rfl, by simp⟩

theorem height_program (steps : List Step) :
    Statement.heightAll (program steps) =
      22 + helperLines 17 19 (steps.map fun step => (step.kind, step.repeated)) +
        (steps.map fun step => passesLines step.repeated).sum := by
  have hhelpers : Statement.heightAll (helpers steps) =
      helperLines 17 19 (steps.map fun step => (step.kind, step.repeated)) := by
    simp only [helpers, helperLines, List.any_map, Function.comp_def, Statement.heightAll_append]
    split <;> split <;> rfl
  have hsteps := heightAll_passes steps (fun step => step.count) (fun step => step.application.line)
  rw [← statement_eq] at hsteps
  simp only [program, Statement.heading, Statement.heightAll, Statement.height, List.cons_append,
    List.nil_append, Statement.heightAll_append, hhelpers, hsteps, Step.repeated]
  omega

/-- Reading the forward pass gives the line of every step as often as it counts, in order. -/
theorem flaxPass?_program {steps : List Step} (h : ∀ step ∈ steps, step.Readable) :
    Outline.flaxPass? (Outline.ofText (Statement.programText (program steps))) =
      some (steps.flatMap fun step =>
        List.replicate step.count step.application.line.toList) := by
  have hne : program steps ≠ [] := by simp [program, Statement.heading]
  have hbody := beforeReturn?_passes (fun step : Step => step.count)
    (fun step => step.application.line) (fun step (_ : step ∈ steps) => head?_line step.application)
    2 "return x" (by decide)
  have hread := executedAll?_passes (fun step : Step => step.count)
    (fun step => step.application.line) (fun step hstep => (h step hstep).count) 2
  rw [← statement_eq] at hbody hread
  rw [Statement.ofText_programText hne (isLine_program h), Outline.flaxPass?, under?_call]
  simp only [Option.bind_eq_bind, Option.bind_some, hbody, hread]

theorem Step.ofUnit_eq_ok {unit : NamedGroup} {step : Step} (h : ofUnit unit = .ok step) :
    step.kind = unit.group.kind ∧ step.count = unit.group.count ∧
      layer unit.group.kind unit.group.config
        (if unit.repeated then indexedName unit.name "i" else quotedName unit.name) unit.name =
          .ok step.application := by
  simp only [ofUnit, bind_eq_ok, pure_eq_ok] at h
  obtain ⟨application, happlication, rfl⟩ := h
  exact ⟨rfl, rfl, happlication⟩

end Flax

end LayerStack.Export
