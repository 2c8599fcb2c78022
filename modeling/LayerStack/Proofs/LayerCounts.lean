import LayerStack.Proofs.RecurrentCounts
import Mathlib.Tactic.GCongr

/-! The counts of a layer as whole numbers, and how they grow.  A configuration in which every field
holds a value of its sort has a count of parameters and, in every shape, a count of operations; both
are polynomials in the sizes without a negative term, except that a pool rounds down. -/

namespace LayerStack

/-! ### The sizes that a kind reads -/

namespace Kind

/-- Whether the operations of a kind depend on a size of the shape. -/
def reads : Kind → Dimension → Bool
  | .lstm, .seqLen | .gru, .seqLen | .transformer, .seqLen | .attention, .seqLen => true
  | .layernorm, .seqLen | .layernorm, .batchSize => true
  | .batchnorm, .batchSize | .batchnorm, .spatialSize => true
  | .conv2d, .inputSize => true
  | .maxpool2d, .inputSize | .maxpool2d, .channels => true
  | .avgpool2d, .inputSize | .avgpool2d, .channels => true
  | _, _ => false

def isPool : Kind → Bool
  | .maxpool2d | .avgpool2d => true
  | _ => false

/-- A kind has defaults for exactly the sizes that it reads. -/
theorem isSome_defaultSize? (kind : Kind) (d : Dimension) :
    (kind.defaultSize? d).isSome = kind.reads d := by
  cases kind <;> cases d <;> rfl

theorem reads_spatialSize_iff {kind : Kind} :
    kind.reads .spatialSize = true ↔ kind = .batchnorm := by
  cases kind <;> decide

end Kind

/-! ### Counts -/

/-- The operations of a pool that moves by the width of its window. -/
def poolWork (kernel inputSize channels : Int) : Int :=
  channels * (inputSize / kernel * kernel) ^ 2

/-- The operations of the projections, the scores and the output of an attention. -/
def attentionWork (model seqLen : Int) : Int := 8 * seqLen * model ^ 2 + 2 * seqLen ^ 2 * model

namespace Kind

/-- The parameters of a layer with the values of its fields. -/
def parametersOf (kind : Kind) (config : Config) : Int :=
  let size := config.whole
  match kind with
  | .embedding => size "vocab_size" * size "embedding_dim"
  | .linear =>
    size "input_dim" * size "output_dim" + if config.flag "use_bias" then size "output_dim" else 0
  | .conv2d =>
    size "in_channels" * size "out_channels" * size "kernel_size" ^ 2 +
      if config.flag "use_bias" then size "out_channels" else 0
  | .lstm | .gru =>
    Recurrent.weights kind.gates (Recurrent.directionCount (config.flag "bidirectional"))
      (size "input_size") (size "hidden_size") (size "num_layers")
  | .transformer =>
    4 * (size "d_model" ^ 2 + size "d_model") +
      (2 * size "d_model" * size "d_ff" + size "d_ff" + size "d_model") + 4 * size "d_model"
  | .attention => 4 * (size "d_model" ^ 2 + size "d_model")
  | .batchnorm => 2 * size "num_features"
  | .layernorm => 2 * size "normalized_shape"
  | .dropout | .maxpool2d | .avgpool2d | .relu | .softmax => 0

/-- The operations of a layer with the values of its fields. -/
def operationsOf (kind : Kind) (config : Config) (shape : Shape) : Int :=
  let size := config.whole
  let given := shape.sizeFor kind
  match kind with
  | .linear => 2 * size "input_dim" * size "output_dim"
  | .conv2d =>
    2 * size "in_channels" * size "out_channels" * size "kernel_size" ^ 2 * given .inputSize ^ 2
  | .lstm | .gru =>
    Recurrent.work kind.gates (Recurrent.directionCount (config.flag "bidirectional"))
      (size "input_size") (size "hidden_size") (size "num_layers") (given .seqLen)
  | .transformer =>
    attentionWork (size "d_model") (given .seqLen) +
      given .seqLen * (4 * size "d_model" * size "d_ff")
  | .attention => attentionWork (size "d_model") (given .seqLen)
  | .batchnorm => 4 * size "num_features" * given .batchSize * given .spatialSize
  | .layernorm => 5 * size "normalized_shape" * given .batchSize * given .seqLen
  | .maxpool2d | .avgpool2d =>
    poolWork (size "kernel_size") (given .inputSize) (given .channels)
  | .embedding | .dropout | .relu | .softmax => 0

end Kind

theorem poolOperations_eq [Machine] {kernel : Int} (h : 1 ≤ kernel) (inputSize channels : Int) :
    poolOperations (.ok (.int kernel)) (.ok (.int inputSize)) (.ok (.int channels)) =
      .ok (.int (poolWork kernel inputSize channels)) := by
  have hquotient : inputSize.fdiv kernel = inputSize / kernel :=
    Int.fdiv_eq_ediv_of_nonneg _ (by omega)
  rw [poolOperations, Amount.floorQuotient_ok, Value.floorQuotient_int _ (by omega), hquotient]
  simp only [bind, Except.bind, Amount.ok_mul_ok, Value.times_int, poolWork]
  ring_nf

namespace Config.Complete

variable {kind : Kind} {config : Config}

theorem parameters_eq [Machine] (h : config.Complete kind) :
    kind.parameters config = .ok (kind.parametersOf config) := by
  have hread := h.read_eq
  have hsizes := h.one_le_whole
  cases kind <;>
    simp [Kind.fields, Kind.attentionFields, Kind.recurrentFields, Field.whole, Field.flag,
      Field.rate, FieldRange.valueIn, FieldRange.isWhole] at hread hsizes
  case lstm => exact Kind.HasGates.lstm.parameters (h.holdsStack rfl) hsizes.2.2
  case gru => exact Kind.HasGates.gru.parameters (h.holdsStack rfl) hsizes.2.2
  all_goals
    simp [Kind.parameters, Kind.parameterAmount, hread, Config.readIf_bool, attentionParameters,
      bind, Except.bind, Kind.parametersOf]
  case conv2d | transformer | attention | batchnorm | layernorm => ring

theorem operations_eq [Machine] (h : config.Complete kind) (shape : Shape) :
    kind.operations config shape = .ok (kind.operationsOf config shape) := by
  have hread := h.read_eq
  have hsizes := h.one_le_whole
  cases kind <;>
    simp [Kind.fields, Kind.attentionFields, Kind.recurrentFields, Field.whole, Field.flag,
      Field.rate, FieldRange.valueIn, FieldRange.isWhole] at hread hsizes
  case lstm => exact Kind.HasGates.lstm.operations (h.holdsStack rfl) hsizes.2.2 shape
  case gru => exact Kind.HasGates.gru.operations (h.holdsStack rfl) hsizes.2.2 shape
  all_goals
    simp [Kind.operations, Kind.operationAmount, hread, attentionOperations, bind, Except.bind,
      Kind.operationsOf, attentionWork]
  case conv2d | transformer | attention | batchnorm | layernorm => ring
  case maxpool2d | avgpool2d =>
    rw [poolOperations_eq hsizes]
    rfl

end Config.Complete

/-! ### Growth -/

/-- No size of the first configuration is above that of the second, and no flag is on in the first
only. -/
structure Kind.Below (kind : Kind) (a b : Config) : Prop where
  sizes : ∀ field ∈ kind.fields, field.range.isWhole = true →
    a.whole field.key ≤ b.whole field.key
  flags : ∀ field ∈ kind.fields, field.range = .flag →
    a.flag field.key = true → b.flag field.key = true

/-- The sizes of the first shape that a kind reads are positive, and none is above that of the
second. -/
def Kind.ShapeBelow (kind : Kind) (s t : Shape) : Prop :=
  ∀ d, kind.reads d = true → 1 ≤ s.sizeFor kind d ∧ s.sizeFor kind d ≤ t.sizeFor kind d

theorem Kind.ShapeBelow.positive {kind : Kind} {s t : Shape} (h : kind.ShapeBelow s t)
    {d : Dimension} (hd : kind.reads d = true) :
    1 ≤ s.sizeFor kind d ∧ s.sizeFor kind d ≤ t.sizeFor kind d ∧ 1 ≤ t.sizeFor kind d := by
  have hsize := h d hd
  omega

namespace Recurrent

theorem directionCount_mono {a b : Bool} (h : a = true → b = true) :
    directionCount a ≤ directionCount b := by
  cases a <;> cases b <;> simp_all [directionCount]

theorem directionCount_nonneg (b : Bool) : 0 ≤ directionCount b := by
  cases b <;> decide

section Bounds

variable {gates directions directions' input input' hidden hidden' layers layers' : Int}
  (hgates : 0 ≤ gates) (hdirections : 0 ≤ directions) (hinput : 1 ≤ input) (hhidden : 1 ≤ hidden)
  (hlayers : 1 ≤ layers) (hdirections' : directions ≤ directions') (hinput' : input ≤ input')
  (hhidden' : hidden ≤ hidden') (hlayers' : layers ≤ layers')

include hgates hdirections hinput hhidden hlayers hdirections' hinput' hhidden' hlayers'

theorem weights_bounds :
    0 ≤ weights gates directions input hidden layers ∧
      weights gates directions input hidden layers ≤
        weights gates directions' input' hidden' layers' := by
  have hlater : 0 ≤ layers - 1 := by omega
  have hlater' : 0 ≤ layers' - 1 := by omega
  have hreadings : 0 ≤ directions' := by omega
  have hwidth : 1 ≤ input' := by omega
  unfold weights
  exact ⟨by positivity, by gcongr⟩

theorem work_bounds {seqLen seqLen' : Int} (hseqLen : 1 ≤ seqLen) (hseqLen' : seqLen ≤ seqLen') :
    0 ≤ work gates directions input hidden layers seqLen ∧
      work gates directions input hidden layers seqLen ≤
        work gates directions' input' hidden' layers' seqLen' := by
  have hlater : 0 ≤ layers - 1 := by omega
  have hlater' : 0 ≤ layers' - 1 := by omega
  have hreadings : 0 ≤ directions' := by omega
  have hwidth : 1 ≤ input' := by omega
  have hlength : 1 ≤ seqLen' := by omega
  unfold work
  exact ⟨by positivity, by gcongr⟩

end Bounds

end Recurrent

theorem attentionWork_bounds {model model' seqLen seqLen' : Int} (hmodel : 1 ≤ model)
    (hseqLen : 1 ≤ seqLen) (hmodel' : model ≤ model') (hseqLen' : seqLen ≤ seqLen') :
    0 ≤ attentionWork model seqLen ∧
      attentionWork model seqLen ≤ attentionWork model' seqLen' := by
  have hlength : 1 ≤ seqLen' := by omega
  unfold attentionWork
  exact ⟨by positivity, by gcongr⟩

theorem bias_mono {a b : Bool} {x y : Int} (hflag : a = true → b = true) (hx : 0 ≤ x)
    (hxy : x ≤ y) : (if a = true then x else 0) ≤ if b = true then y else 0 := by
  cases a <;> cases b <;> simp_all
  omega

section Pools

variable {kernel inputSize channels : Int}

theorem poolWork_nonneg (hchannels : 1 ≤ channels) : 0 ≤ poolWork kernel inputSize channels := by
  unfold poolWork
  positivity

variable (hkernel : 1 ≤ kernel) (hinputSize : 1 ≤ inputSize) (hchannels : 1 ≤ channels)

include hkernel hinputSize hchannels

theorem poolWork_mono {inputSize' channels' : Int} (hinputSize' : inputSize ≤ inputSize')
    (hchannels' : channels ≤ channels') :
    poolWork kernel inputSize channels ≤ poolWork kernel inputSize' channels' := by
  have hcovered : 0 ≤ inputSize / kernel * kernel := by positivity
  have hmore : 1 ≤ channels' := by omega
  unfold poolWork
  gcongr
  exact Int.ediv_le_ediv (by omega) hinputSize'

/-- The windows of a pool do not overlap and stay within the input. -/
theorem poolWork_le : poolWork kernel inputSize channels ≤ channels * inputSize ^ 2 := by
  have hcovered : 0 ≤ inputSize / kernel * kernel := by positivity
  have hwithin := Int.ediv_mul_le inputSize (show kernel ≠ 0 by omega)
  unfold poolWork
  gcongr

theorem poolWork_eq_iff :
    poolWork kernel inputSize channels = channels * inputSize ^ 2 ↔ kernel ∣ inputSize := by
  have hcovered : 0 ≤ inputSize / kernel * kernel := by positivity
  rw [poolWork, mul_right_inj' (by omega), sq_eq_sq₀ hcovered (by omega)]
  exact ⟨fun h => ⟨inputSize / kernel, by rw [mul_comm, h]⟩, Int.ediv_mul_cancel⟩

theorem poolWork_eq_zero_iff : poolWork kernel inputSize channels = 0 ↔ inputSize < kernel := by
  have hquotient : 0 ≤ inputSize / kernel := by positivity
  have hwindow : 1 ≤ inputSize / kernel ↔ 1 * kernel ≤ inputSize :=
    Int.le_ediv_iff_mul_le (by omega)
  rw [poolWork, mul_eq_zero, or_iff_right (by omega), sq_eq_zero_iff, mul_eq_zero,
    or_iff_left (by omega)]
  omega

end Pools

namespace Kind

variable {kind : Kind} {a b : Config}

theorem Below.refl (kind : Kind) (a : Config) : kind.Below a a :=
  ⟨fun _ _ _ => le_rfl, fun _ _ _ => id⟩

theorem Below.parametersOf_bounds (hle : kind.Below a b) (ha : a.Complete kind)
    (hb : b.Complete kind) :
    0 ≤ kind.parametersOf a ∧ kind.parametersOf a ≤ kind.parametersOf b := by
  have hsizes := ha.one_le_whole
  have hsizes' := hb.one_le_whole
  obtain ⟨hmore, hflags⟩ := hle
  cases kind <;>
    simp [Kind.fields, Kind.attentionFields, Kind.recurrentFields, Field.whole, Field.flag,
      Field.rate, FieldRange.isWhole] at hsizes hsizes' hmore hflags <;>
    simp only [parametersOf, le_refl, and_self]
  case embedding | transformer | attention =>
    -- The bounds of the sizes have to be hypotheses of their own to be found.
    casesm* _ ∧ _
    exact ⟨by positivity, by gcongr⟩
  case linear | conv2d =>
    casesm* _ ∧ _
    refine ⟨add_nonneg (by positivity) ?_, add_le_add (by gcongr) (bias_mono hflags ?_ ?_)⟩
    · split <;> omega
    all_goals omega
  case lstm | gru =>
    obtain ⟨hinput, hhidden, hlayers⟩ := hsizes
    obtain ⟨hinput', hhidden', hlayers'⟩ := hmore
    exact Recurrent.weights_bounds (by decide) (Recurrent.directionCount_nonneg _) hinput hhidden
      hlayers (Recurrent.directionCount_mono hflags) hinput' hhidden' hlayers'
  case batchnorm | layernorm => omega

theorem Below.operationsOf_bounds (hle : kind.Below a b) (ha : a.Complete kind)
    (hb : b.Complete kind) (hpool : kind.isPool = false) {s t : Shape}
    (hshape : kind.ShapeBelow s t) :
    0 ≤ kind.operationsOf a s ∧ kind.operationsOf a s ≤ kind.operationsOf b t := by
  have hsizes := ha.one_le_whole
  have hsizes' := hb.one_le_whole
  obtain ⟨hmore, hflags⟩ := hle
  cases kind <;>
    simp [Kind.fields, Kind.attentionFields, Kind.recurrentFields, Field.whole, Field.flag,
      Field.rate, FieldRange.isWhole] at hsizes hsizes' hmore hflags <;>
    simp only [operationsOf, le_refl, and_self]
  case linear =>
    casesm* _ ∧ _
    exact ⟨by positivity, by gcongr⟩
  case conv2d =>
    have hinputSize := hshape.positive (d := .inputSize) rfl
    casesm* _ ∧ _
    exact ⟨by positivity, by gcongr⟩
  case lstm | gru =>
    obtain ⟨hinput, hhidden, hlayers⟩ := hsizes
    obtain ⟨hinput', hhidden', hlayers'⟩ := hmore
    obtain ⟨hseqLen, hseqLen'⟩ := hshape .seqLen rfl
    exact Recurrent.work_bounds (by decide) (Recurrent.directionCount_nonneg _) hinput hhidden
      hlayers (Recurrent.directionCount_mono hflags) hinput' hhidden' hlayers' hseqLen hseqLen'
  case transformer =>
    obtain ⟨hseqLen, hseqLen', hlength⟩ := hshape.positive (d := .seqLen) rfl
    have hattention := attentionWork_bounds hsizes.1 hseqLen hmore.1 hseqLen'
    casesm* _ ∧ _
    exact ⟨by positivity, by gcongr⟩
  case attention =>
    obtain ⟨hseqLen, hseqLen'⟩ := hshape .seqLen rfl
    exact attentionWork_bounds hsizes.1 hseqLen hmore.1 hseqLen'
  case batchnorm =>
    have hbatchSize := hshape.positive (d := .batchSize) rfl
    have hspatialSize := hshape.positive (d := .spatialSize) rfl
    casesm* _ ∧ _
    exact ⟨by positivity, by gcongr⟩
  case layernorm =>
    have hbatchSize := hshape.positive (d := .batchSize) rfl
    have hseqLen := hshape.positive (d := .seqLen) rfl
    casesm* _ ∧ _
    exact ⟨by positivity, by gcongr⟩
  case maxpool2d | avgpool2d => simp [isPool] at hpool

end Kind

theorem Config.Complete.parametersOf_nonneg {kind : Kind} {config : Config}
    (h : config.Complete kind) : 0 ≤ kind.parametersOf config :=
  ((Kind.Below.refl kind config).parametersOf_bounds h h).1

/-- A pool works on the part of its input that its windows cover, which is all of it if the width of
a window divides that of the input, and nothing if no window fits in. -/
theorem Kind.pool_operations [Machine] {kind : Kind} (hpool : kind.isPool = true) {config : Config}
    (h : config.Complete kind) {s t : Shape} (hshape : kind.ShapeBelow s t) :
    ∃ kernel m n, config.get? "kernel_size" = some (.int kernel) ∧
      kind.operations config s = .ok m ∧ kind.operations config t = .ok n ∧ 0 ≤ m ∧ m ≤ n ∧
      m ≤ s.sizeFor kind .channels * s.sizeFor kind .inputSize ^ 2 ∧
      (m = s.sizeFor kind .channels * s.sizeFor kind .inputSize ^ 2 ↔
        kernel ∣ s.sizeFor kind .inputSize) ∧
      (m = 0 ↔ s.sizeFor kind .inputSize < kernel) := by
  cases kind <;> simp [isPool] at hpool
  case maxpool2d | avgpool2d =>
    have hget := (h.get?_eq (List.mem_singleton_self _)).1
    have hkernel := h.one_le_whole _ (List.mem_singleton_self _) rfl
    obtain ⟨hinputSize, hinputSize'⟩ := hshape .inputSize rfl
    obtain ⟨hchannels, hchannels'⟩ := hshape .channels rfl
    exact ⟨_, _, _, hget, h.operations_eq s, h.operations_eq t, poolWork_nonneg hchannels,
      poolWork_mono hkernel hinputSize hchannels hinputSize' hchannels',
      poolWork_le hkernel hinputSize hchannels, poolWork_eq_iff hkernel hinputSize hchannels,
      poolWork_eq_zero_iff hkernel hinputSize hchannels⟩

/-- The counts of a layer are not negative and grow with the sizes of its configuration, with its
flags, and with the sizes of the shape that its kind reads.  Only for a pool a wider window may
count less; it never counts more than the whole input. -/
theorem Kind.counts_monotone [Machine] {kind : Kind} {a b : Config} (ha : a.Complete kind)
    (hb : b.Complete kind) (hle : kind.Below a b) :
    (∃ m n, kind.parameters a = .ok m ∧ kind.parameters b = .ok n ∧ 0 ≤ m ∧ m ≤ n) ∧
    ∀ s t, kind.ShapeBelow s t →
      (kind.isPool = false → ∃ m n, kind.operations a s = .ok m ∧ kind.operations b t = .ok n ∧
        0 ≤ m ∧ m ≤ n) ∧
      (kind.isPool = true → ∃ kernel m n, a.get? "kernel_size" = some (.int kernel) ∧
        kind.operations a s = .ok m ∧ kind.operations a t = .ok n ∧ 0 ≤ m ∧ m ≤ n ∧
        m ≤ s.sizeFor kind .channels * s.sizeFor kind .inputSize ^ 2 ∧
        (m = s.sizeFor kind .channels * s.sizeFor kind .inputSize ^ 2 ↔
          kernel ∣ s.sizeFor kind .inputSize) ∧
        (m = 0 ↔ s.sizeFor kind .inputSize < kernel)) := by
  refine ⟨⟨_, _, ha.parameters_eq, hb.parameters_eq, hle.parametersOf_bounds ha hb⟩,
    fun s t hshape => ⟨fun hpool => ?_, fun hpool => pool_operations hpool ha hshape⟩⟩
  exact ⟨_, _, ha.operations_eq s, hb.operations_eq t, hle.operationsOf_bounds ha hb hpool hshape⟩

/-- The stack of three layers, read in one direction. -/
def oneWayStack : Config := deepStack.set "bidirectional" (.bool false)

theorem below_deepStack : Kind.lstm.Below oneWayStack deepStack where
  sizes := by decide
  flags := by decide

/-- A window of three. -/
def thirds : Config := ⟨[("kernel_size", .int 3)]⟩

theorem shapeBelow_seqLen : Kind.lstm.ShapeBelow (Shape.empty.set .seqLen 11) .empty := by
  intro d
  cases d <;> decide

theorem shapeBelow_inputSize :
    Kind.maxpool2d.ShapeBelow (Shape.empty.set .inputSize 7) .empty := by
  intro d
  cases d <;> decide

attribute [local instance] Machine.small

theorem counts_monotone_deepStack :
    (oneWayStack.Complete .lstm ∧ deepStack.Complete .lstm ∧
      Kind.lstm.Below oneWayStack deepStack ∧
      Kind.lstm.ShapeBelow (Shape.empty.set .seqLen 11) .empty ∧
      (∃ m n, Kind.lstm.parameters oneWayStack = .ok m ∧ Kind.lstm.parameters deepStack = .ok n ∧
        0 ≤ m ∧ m ≤ n) ∧
      ∃ m n, Kind.lstm.operations oneWayStack (Shape.empty.set .seqLen 11) = .ok m ∧
        Kind.lstm.operations deepStack .empty = .ok n ∧ 0 ≤ m ∧ m ≤ n) ∧
    thirds.Complete .maxpool2d ∧ Kind.maxpool2d.Below thirds thirds ∧
      Kind.maxpool2d.ShapeBelow (Shape.empty.set .inputSize 7) .empty ∧
      ∃ m n, Kind.maxpool2d.operations thirds (Shape.empty.set .inputSize 7) = .ok m ∧
        Kind.maxpool2d.operations thirds .empty = .ok n ∧ 0 ≤ m ∧ m ≤ n ∧ m < 64 * 7 ^ 2 ∧
        m ≠ 0 := by
  have hstack : oneWayStack.Complete .lstm ∧ deepStack.Complete .lstm := by decide
  have hwindow : thirds.Complete .maxpool2d := by decide
  obtain ⟨hparameters, hoperations⟩ :=
    Kind.counts_monotone hstack.1 hstack.2 below_deepStack
  obtain ⟨-, hpools⟩ := Kind.counts_monotone hwindow hwindow (.refl .maxpool2d thirds)
  obtain ⟨kernel, m, n, hkernel, hm, hn, hnonneg, hmore, hle, hwhole, hnothing⟩ :=
    (hpools _ _ shapeBelow_inputSize).2 rfl
  obtain rfl : (3 : Int) = kernel := by
    simpa [thirds, Config.get?, Entries.get?, Value.int] using hkernel
  refine ⟨⟨hstack.1, hstack.2, below_deepStack, shapeBelow_seqLen, hparameters,
    (hoperations _ _ shapeBelow_seqLen).1 rfl⟩, hwindow, .refl .maxpool2d thirds,
    shapeBelow_inputSize, m, n, hm, hn, hnonneg, hmore, ?_, ?_⟩
  · exact lt_of_le_of_ne hle fun h => absurd (hwhole.mp h) (by decide)
  · exact fun h => absurd (hnothing.mp h) (by decide)

end LayerStack
