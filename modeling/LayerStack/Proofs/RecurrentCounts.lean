import LayerStack.Proofs.FieldValues
import Mathlib.Tactic.Positivity
import Mathlib.Tactic.Ring

/-! The counts of recurrent stacks in closed form.  A stack adds up a term for each of its layers.
The first layer reads the input and every later one the outputs of all directions, so that the terms
are the same from the second layer on. -/

namespace LayerStack

/-- Whether a configuration holds a recurrent stack of these sizes. -/
structure Config.HoldsStack (config : Config) (input hidden layers : Int) (bidirectional : Bool) :
    Prop where
  input : config.get? "input_size" = some (.int input)
  hidden : config.get? "hidden_size" = some (.int hidden)
  layers : config.get? "num_layers" = some (.int layers)
  bidirectional : config.get? "bidirectional" = some (.bool bidirectional)

/-- The recurrent kinds, each with the number of its gates. -/
inductive Kind.HasGates : Kind → Int → Prop
  | lstm : HasGates .lstm 4
  | gru : HasGates .gru 3

section HoldsStack

variable {config : Config} {input hidden layers : Int} {bidirectional : Bool}

/-- Making a stack read in both directions, or in one, leaves its sizes as they are. -/
theorem Config.HoldsStack.set (h : config.HoldsStack input hidden layers bidirectional)
    (both : Bool) :
    (config.set "bidirectional" (.bool both)).HoldsStack input hidden layers both where
  input := (Entries.get?_set_of_ne _ _ (by decide)).trans h.input
  hidden := (Entries.get?_set_of_ne _ _ (by decide)).trans h.hidden
  layers := (Entries.get?_set_of_ne _ _ (by decide)).trans h.layers
  bidirectional := Entries.get?_set_self _ _ _

theorem Config.Complete.holdsStack {kind : Kind} (h : config.Complete kind)
    (hkind : kind.isRecurrent = true) :
    config.HoldsStack (config.whole "input_size") (config.whole "hidden_size")
      (config.whole "num_layers") (config.flag "bidirectional") := by
  have hget := fun field (hfield : field ∈ kind.fields) => (h.get?_eq hfield).1
  rw [Kind.fields_of_isRecurrent hkind] at hget
  simp [Kind.recurrentFields, Field.whole, Field.flag, FieldRange.valueIn] at hget
  obtain ⟨hinput, hhidden, hlayers, hbidirectional⟩ := hget
  exact ⟨hinput, hhidden, hlayers, hbidirectional⟩

end HoldsStack

namespace Recurrent

/-! ### Sums over a stack -/

theorem sumFrom_ok (term : Nat → Int) (total : Int) (i n : Nat) :
    sumFrom (fun i => .ok (.int (term i))) (.int total) i n =
      .ok (.int (total + ((List.range' i n).map term).sum)) := by
  induction n generalizing i total with
  | zero => simp [sumFrom]
  | succ n ih => simp [sumFrom, ih, List.range'_succ, Int.add_assoc]

theorem sumLayers_ok (r : Recurrent) (term : Nat → Int) :
    r.sumLayers (fun i => .ok (.int (term i))) =
      .ok (.int (((List.range r.layers.toNat).map term).sum)) := by
  rw [sumLayers, sumFrom_ok, List.range_eq_range', Int.zero_add]

/-- The sum over a stack whose terms are the same from the second layer on. -/
theorem sumLayers_of_later {r : Recurrent} (h : 1 ≤ r.layers) (term : Nat → Int) {later : Int}
    (hlater : ∀ i, term (i + 1) = later) :
    r.sumLayers (fun i => .ok (.int (term i))) = .ok (.int (term 0 + (r.layers - 1) * later)) := by
  obtain ⟨n, hn⟩ : ∃ n : Nat, r.layers = n + 1 := ⟨(r.layers - 1).toNat, by omega⟩
  have hrest : ((List.range n).map fun i => term (i + 1)).sum = n * later := by
    simp [hlater]
  rw [sumLayers_ok, show r.layers.toNat = n + 1 by omega, List.range_succ_eq_map, List.map_cons,
    List.sum_cons, List.map_map, Function.comp_def, hrest, hn]
  simp

/-! ### Stacks of whole sizes -/

/-- A stack whose sizes are whole numbers. -/
def ofSizes (input hidden layers : Int) (bidirectional : Bool) : Recurrent :=
  ⟨if bidirectional then 2 else 1, .int hidden, layers, .ok (.int input)⟩

theorem ofConfig_of_holdsStack {config : Config} {input hidden layers : Int} {bidirectional : Bool}
    (h : config.HoldsStack input hidden layers bidirectional) :
    ofConfig config = .ok (ofSizes input hidden layers bidirectional) := by
  obtain ⟨hinput, hhidden, hlayers, hbidirectional⟩ := h
  simp [ofConfig, Config.readFlag, Config.read, hinput, hhidden, hlayers, hbidirectional, bind,
    Except.bind, Except.map, Value.passes]
  rfl

theorem ofConfig_eq {layer : Layer} (h : layer.Configured) (hkind : layer.kind.isRecurrent = true) :
    ofConfig layer.config = .ok (ofSizes (layer.config.whole "input_size")
      (layer.config.whole "hidden_size") (layer.config.whole "num_layers")
      (layer.config.flag "bidirectional")) :=
  ofConfig_of_holdsStack (h.complete.holdsStack hkind)

theorem inputOf_ofSizes [Machine] (input hidden layers : Int) (bidirectional : Bool)
    (i : Nat) :
    (ofSizes input hidden layers bidirectional).inputOf i =
      .ok (.int (if i = 0 then input else hidden * if bidirectional then 2 else 1)) := by
  rw [inputOf]
  split <;> rfl

/-! ### Closed forms -/

/-- The number of directions in which a stack reads. -/
def directionCount (bidirectional : Bool) : Int := if bidirectional then 2 else 1

/-- The parameters of a stack of one layer at least. -/
def weights (gates directions input hidden layers : Int) : Int :=
  gates * directions * ((input * hidden + hidden ^ 2 + 2 * hidden) +
    (layers - 1) * (directions * hidden ^ 2 + hidden ^ 2 + 2 * hidden))

/-- The operations of a stack of one layer at least. -/
def work (gates directions input hidden layers seqLen : Int) : Int :=
  2 * gates * directions * seqLen * ((input * hidden + hidden ^ 2) +
    (layers - 1) * (directions * hidden ^ 2 + hidden ^ 2))

section ClosedForms

variable {layers : Int} (hlayers : 1 ≤ layers) (gates input hidden : Int) (bidirectional : Bool)

include hlayers

theorem parameters_eq_weights [Machine] :
    (ofSizes input hidden layers bidirectional).parameters gates =
      .ok (.int (weights gates (directionCount bidirectional) input hidden layers)) := by
  rw [parameters]
  simp only [inputOf_ofSizes]
  refine (sumLayers_of_later hlayers (fun i => gates * ((if i = 0 then input else
    hidden * directionCount bidirectional) * hidden + hidden * hidden + 2 * hidden) *
      directionCount bidirectional) fun i => by rw [if_neg i.succ_ne_zero]).trans ?_
  simp only [ofSizes, weights, if_true]
  ring_nf

theorem operations_eq_work [Machine] (seqLen : Int) :
    (ofSizes input hidden layers bidirectional).operations gates seqLen =
      .ok (.int (work gates (directionCount bidirectional) input hidden layers seqLen)) := by
  rw [operations]
  simp only [inputOf_ofSizes]
  refine (sumLayers_of_later hlayers (fun i => gates * 2 * ((if i = 0 then input else
    hidden * directionCount bidirectional) * hidden + hidden * hidden) * seqLen *
      directionCount bidirectional) fun i => by rw [if_neg i.succ_ne_zero]).trans ?_
  simp only [ofSizes, work, if_true]
  ring_nf

end ClosedForms

/-- A second direction doubles a stack, and in each later layer it also widens the input. -/
theorem weights_two (gates input hidden layers : Int) :
    weights gates 2 input hidden layers =
      2 * weights gates 1 input hidden layers + 2 * gates * (layers - 1) * hidden ^ 2 := by
  simp only [weights]
  ring

theorem work_two (gates input hidden layers seqLen : Int) :
    work gates 2 input hidden layers seqLen = 2 * work gates 1 input hidden layers seqLen +
      4 * gates * seqLen * (layers - 1) * hidden ^ 2 := by
  simp only [work]
  ring

theorem work_two_eq_double_iff {gates hidden seqLen : Int} (hgates : 0 < gates)
    (hhidden : 0 < hidden) (hseqLen : 0 < seqLen) (input layers : Int) :
    work gates 2 input hidden layers seqLen = 2 * work gates 1 input hidden layers seqLen ↔
      layers = 1 := by
  have hcost : 0 < 4 * gates * seqLen * hidden ^ 2 := by positivity
  have hextra : 4 * gates * seqLen * (layers - 1) * hidden ^ 2 =
      4 * gates * seqLen * hidden ^ 2 * (layers - 1) := by ring
  rw [work_two, hextra, add_eq_left, mul_eq_zero, or_iff_right hcost.ne', sub_eq_zero]

end Recurrent

/-! ### Layers -/

namespace Kind.HasGates

variable {kind : Kind} {gates : Int} {config : Config} {input hidden layers : Int}
  {bidirectional : Bool}

theorem pos (h : kind.HasGates gates) : 0 < gates := by
  cases h <;> decide

theorem parameters [Machine] (hgates : kind.HasGates gates)
    (h : config.HoldsStack input hidden layers bidirectional) (hlayers : 1 ≤ layers) :
    kind.parameters config = .ok (Recurrent.weights gates (Recurrent.directionCount bidirectional)
      input hidden layers) := by
  have hstack := Recurrent.ofConfig_of_holdsStack h
  cases hgates <;>
    simp [Kind.parameters, parameterAmount, hstack, Kind.gates, bind, Except.bind,
      Recurrent.parameters_eq_weights hlayers]

theorem sizeFor_seqLen (h : kind.HasGates gates) (shape : Shape) :
    shape.sizeFor kind .seqLen = (shape.size? .seqLen).getD 128 := by
  cases hsize : shape.size? .seqLen with
  | some n => exact Shape.sizeFor_of_some kind hsize
  | none => cases h <;> exact Shape.sizeFor_of_none _ hsize

theorem operations [Machine] (hgates : kind.HasGates gates)
    (h : config.HoldsStack input hidden layers bidirectional) (hlayers : 1 ≤ layers)
    (shape : Shape) :
    kind.operations config shape = .ok (Recurrent.work gates
      (Recurrent.directionCount bidirectional) input hidden layers
      (shape.sizeFor kind .seqLen)) := by
  have hstack := Recurrent.ofConfig_of_holdsStack h
  cases hgates <;>
    simp [Kind.operations, operationAmount, hstack, Kind.gates, bind, Except.bind,
      Recurrent.operations_eq_work hlayers]

end Kind.HasGates

/-- The parameters and the operations of a recurrent layer with a stack of any depth, and with a
sequence of any length; in the length the operations are linear. -/
theorem Kind.recurrent_counts [Machine] {kind : Kind} {gates : Int} (hgates : kind.HasGates gates)
    {config : Config} {input hidden layers : Int} {bidirectional : Bool}
    (h : config.HoldsStack input hidden layers bidirectional) (hlayers : 1 ≤ layers) :
    let directions : Int := if bidirectional then 2 else 1
    kind.parameters config =
        .ok (gates * directions * ((input * hidden + hidden ^ 2 + 2 * hidden) +
          (layers - 1) * (directions * hidden ^ 2 + hidden ^ 2 + 2 * hidden))) ∧
      (∀ shape seqLen, (shape.size? .seqLen).getD 128 = seqLen →
        kind.operations config shape =
          .ok (2 * gates * directions * seqLen * ((input * hidden + hidden ^ 2) +
            (layers - 1) * (directions * hidden ^ 2 + hidden ^ 2)))) ∧
      ∃ perStep, ∀ shape, kind.operations config shape =
        .ok ((shape.size? .seqLen).getD 128 * perStep) := by
  have hoperations := hgates.operations h hlayers
  simp only [hgates.sizeFor_seqLen] at hoperations
  refine ⟨hgates.parameters h hlayers, fun shape seqLen hseqLen => ?_,
    Recurrent.work gates (Recurrent.directionCount bidirectional) input hidden layers 1,
    fun shape => ?_⟩
  · rw [hoperations, hseqLen]
    rfl
  · rw [hoperations, Recurrent.work, Recurrent.work]
    ring_nf

attribute [local instance] Machine.small

/-- A configuration of three layers in both directions. -/
def deepStack : Config := ⟨[
  ("input_size", .int 5), ("hidden_size", .int 7), ("num_layers", .int 3),
  ("bidirectional", .bool true)]⟩

theorem holdsStack_deepStack : deepStack.HoldsStack 5 7 3 true := ⟨rfl, rfl, rfl, rfl⟩

theorem recurrent_counts_deepStack :
    Kind.gru.HasGates 3 ∧ deepStack.HoldsStack 5 7 3 true ∧ (1 : Int) ≤ 3 ∧
      Kind.gru.parameters deepStack =
        .ok (3 * 2 * ((5 * 7 + 7 ^ 2 + 2 * 7) + (3 - 1) * (2 * 7 ^ 2 + 7 ^ 2 + 2 * 7))) ∧
      Kind.gru.operations deepStack (Shape.empty.set .seqLen 11) =
        .ok (2 * 3 * 2 * 11 * ((5 * 7 + 7 ^ 2) + (3 - 1) * (2 * 7 ^ 2 + 7 ^ 2))) ∧
      ∃ perStep, ∀ shape, Kind.gru.operations deepStack shape =
        .ok ((shape.size? .seqLen).getD 128 * perStep) := by
  obtain ⟨hparameters, hoperations, hlinear⟩ :=
    Kind.recurrent_counts .gru holdsStack_deepStack (by decide)
  exact ⟨.gru, holdsStack_deepStack, by decide, hparameters,
    hoperations (Shape.empty.set .seqLen 11) 11 rfl, hlinear⟩

/-- How the variants of one stack compare.  The two recurrent kinds differ by their numbers of
gates; a second direction more than doubles the operations, unless there is one layer only. -/
theorem Kind.recurrent_variants [Machine] {config : Config} {input hidden layers seqLen : Int}
    {bidirectional : Bool} (h : config.HoldsStack input hidden layers bidirectional)
    (hhidden : 1 ≤ hidden) (hlayers : 1 ≤ layers) (hseqLen : 1 ≤ seqLen) {shape : Shape}
    (hshape : shape.size? .seqLen = some seqLen) :
    (∃ p q m n, Kind.lstm.parameters config = .ok p ∧ Kind.gru.parameters config = .ok q ∧
      Kind.lstm.operations config shape = .ok m ∧ Kind.gru.operations config shape = .ok n ∧
      4 * q = 3 * p ∧ 4 * n = 3 * m) ∧
    ∀ kind gates, HasGates kind gates →
      ∃ p q m n,
        kind.parameters (config.set "bidirectional" (.bool false)) = .ok p ∧
        kind.parameters (config.set "bidirectional" (.bool true)) = .ok q ∧
        kind.operations (config.set "bidirectional" (.bool false)) shape = .ok m ∧
        kind.operations (config.set "bidirectional" (.bool true)) shape = .ok n ∧
        q = 2 * p + 2 * gates * (layers - 1) * hidden ^ 2 ∧
        n = 2 * m + 4 * gates * seqLen * (layers - 1) * hidden ^ 2 ∧
        (n = 2 * m ↔ layers = 1) := by
  constructor
  · refine ⟨_, _, _, _, HasGates.lstm.parameters h hlayers, HasGates.gru.parameters h hlayers,
      HasGates.lstm.operations h hlayers shape, HasGates.gru.operations h hlayers shape, ?_, ?_⟩
    · simp only [Recurrent.weights]
      ring
    · rw [Shape.sizeFor_of_some _ hshape, Shape.sizeFor_of_some _ hshape]
      simp only [Recurrent.work]
      ring
  · intro kind gates hgates
    refine ⟨_, _, _, _, hgates.parameters (h.set false) hlayers,
      hgates.parameters (h.set true) hlayers, hgates.operations (h.set false) hlayers shape,
      hgates.operations (h.set true) hlayers shape, ?_⟩
    rw [Shape.sizeFor_of_some _ hshape]
    exact ⟨Recurrent.weights_two gates input hidden layers,
      Recurrent.work_two gates input hidden layers seqLen,
      Recurrent.work_two_eq_double_iff hgates.pos (by omega) (by omega) input layers⟩

theorem recurrent_variants_deepStack :
    deepStack.HoldsStack 5 7 3 true ∧ (1 : Int) ≤ 7 ∧ (1 : Int) ≤ 3 ∧ (1 : Int) ≤ 11 ∧
      (Shape.empty.set .seqLen 11).size? .seqLen = some 11 ∧
      ∃ m n,
        Kind.lstm.operations (deepStack.set "bidirectional" (.bool false))
          (Shape.empty.set .seqLen 11) = .ok m ∧
        Kind.lstm.operations (deepStack.set "bidirectional" (.bool true))
          (Shape.empty.set .seqLen 11) = .ok n ∧
        n = 2 * m + 4 * 4 * 11 * (3 - 1) * 7 ^ 2 ∧ n ≠ 2 * m := by
  obtain ⟨-, hdirections⟩ := Kind.recurrent_variants holdsStack_deepStack (by decide) (by decide)
    (by decide) (Shape.size?_set_self .empty .seqLen 11)
  obtain ⟨_, _, m, n, -, -, hm, hn, -, hextra, hdouble⟩ := hdirections .lstm 4 .lstm
  exact ⟨holdsStack_deepStack, by decide, by decide, by decide, rfl, m, n, hm, hn, hextra,
    fun h => absurd (hdouble.mp h) (by decide)⟩

end LayerStack
