import LayerStack.Proofs.Responses

/-! Which models can be calculated.  Every field of an accepted model is a finite number, but its
totals are sums of products of them, and the texts of totals are made from doubles.  So a model gets
an answer exactly if its operations and its memory have finite doubles near them. -/

namespace LayerStack

open Binary64 (overflow)

/-! ### Texts of sizes -/

namespace SizeText

theorem toReal_ok {n : Int} (h : |n| < overflow) : ∃ x, toReal (.int n) = .ok x := by
  obtain ⟨x, hx⟩ := Option.isSome_iff_exists.mp (Binary64.isSome_ofInt?_iff.mpr h)
  exact ⟨x, by simp [toReal, Number.toBinary64?, hx]⟩

theorem toReal_error {n : Int} (h : overflow ≤ |n|) : toReal (.int n) = .error .wholeTooLarge := by
  have hnone : Binary64.ofInt? n = none := by
    rw [← Option.not_isSome_iff_eq_none, Binary64.isSome_ofInt?_iff]
    exact not_lt.mpr h
  simp [toReal, Number.toBinary64?, hnone]

theorem atLeast_int {n : Int} {m : Nat} : (Number.int n).atLeast m = true ↔ (m : Int) ≤ n := by
  simp only [Number.atLeast, decide_eq_true_eq]
  exact_mod_cast Iff.rfl

theorem scaled_ok (scales : List Scale) (bare : String) {n : Int} (h : n < overflow) :
    ∃ text, scaled scales bare (.int n) = .ok text := by
  unfold scaled
  split
  next scale hfind =>
    have hle := List.find?_some hfind
    rw [atLeast_int] at hle
    obtain ⟨x, hx⟩ := toReal_ok (show |n| < overflow by rwa [abs_of_nonneg (by omega)])
    exact ⟨_, by rw [hx]; rfl⟩
  next => exact ⟨_, rfl⟩

/-- A number that is too large reaches every unit, so that none is written in full. -/
theorem scaled_error {scales : List Scale} (hscale : ∃ scale ∈ scales, scale.amount ≤ overflow)
    (bare : String) {n : Int} (h : overflow ≤ n) :
    scaled scales bare (.int n) = .error .wholeTooLarge := by
  unfold scaled
  split
  next =>
    rw [toReal_error (h.trans (le_abs_self n))]
    rfl
  next hfind =>
    obtain ⟨scale, hmem, hle⟩ := hscale
    exact absurd (atLeast_int.mpr (by omega)) (List.find?_eq_none.mp hfind scale hmem)

theorem count_error {n : Int} (h : overflow ≤ n) : count (.int n) = .error .wholeTooLarge :=
  scaled_error ⟨⟨1000, "K"⟩, by decide, by decide +kernel⟩ "" h

theorem bytes_error {n : Int} (h : overflow ≤ n) : bytes (.int n) = .error .wholeTooLarge :=
  scaled_error ⟨⟨1000, " KB"⟩, by decide, by decide +kernel⟩ " B" h

theorem megabytes_real_ok (x : Binary64) : ∃ text, megabytes (.real x) = .ok text := by
  unfold megabytes
  split <;> exact ⟨_, rfl⟩

end SizeText

/-! ### Totals -/

theorem weightMegabytes_ok {parameters : Int} (hnonneg : 0 ≤ parameters)
    (h : parameters < overflow * 2 ^ 18) : ∃ size, weightMegabytes parameters = .ok size := by
  have hbytes :
      |parameters * (Precision.fp32.bytes : Int)| < overflow * ((1024 * 1024 : Nat) : Int) := by
    rw [abs_of_nonneg (mul_nonneg hnonneg (Int.natCast_nonneg _))]
    simp only [Precision.bytes]
    omega
  obtain ⟨size, hsize⟩ :=
    Option.isSome_iff_exists.mp ((Binary64.isSome_quotient?_iff (by decide)).mpr hbytes)
  exact ⟨size, by simp only [weightMegabytes, hsize]⟩

theorem weightMegabytes_error {parameters : Int} (h : overflow * 2 ^ 18 ≤ parameters) :
    weightMegabytes parameters = .error .quotientTooLarge := by
  have hnone : Binary64.quotient? (parameters * Precision.fp32.bytes) (1024 * 1024) = none := by
    rw [← Option.not_isSome_iff_eq_none, Binary64.isSome_quotient?_iff (by decide), not_lt]
    refine le_trans ?_ (le_abs_self _)
    simp only [Precision.bytes]
    omega
  simp only [weightMegabytes, hnone]

theorem le_memoryBytes {parameters : Int} (h : 0 ≤ parameters) (mode : MemoryMode)
    (precision : Precision) : parameters ≤ memoryBytes parameters mode precision := by
  cases mode <;> cases precision <;>
    simp only [memoryBytes, Precision.bytes, MemoryMode.copies] <;> omega

theorem Summary.totalParameters_nonneg [Machine] {layers : List Layer}
    (h : ∀ layer ∈ layers, layer.Configured) {shape : Shape} {summary : Summary}
    (hsummary : ofLayers layers shape = .ok summary) : 0 ≤ summary.totalParameters := by
  obtain ⟨other, hother, htotal⟩ := ofLayers_ok h shape
  obtain rfl : other = summary := Except.ok.inj (hother.symm.trans hsummary)
  rw [htotal]
  exact List.sum_nonneg (List.forall_mem_map.mpr fun layer hlayer =>
    Export.Torch.layerParameters_nonneg (h layer hlayer))

namespace Service

/-- The totals of a summary have finite doubles near them, so that their texts can be written. -/
structure Writable (summary : Summary) (precision mode : Value) : Prop where
  operations : summary.totalOperations < overflow
  memory : memoryBytes summary.totalParameters (.ofValue mode) (.ofValue precision) < overflow

section Totals

variable {model : Model} {shape : Shape} {summary : Summary} {precision mode : Value}

theorem calculation_ok [Machine] (hsummary : Summary.ofLayers model.layers shape = .ok summary)
    (hnonneg : 0 ≤ summary.totalParameters) (h : Writable summary precision mode) :
    ∃ body, calculation model precision mode shape = .ok (.json 200 body) := by
  have hweights : summary.totalParameters < overflow * 2 ^ 18 := by
    have hmemory := h.memory
    have hle := le_memoryBytes hnonneg (.ofValue mode) (.ofValue precision)
    omega
  obtain ⟨size, hsize⟩ := weightMegabytes_ok hnonneg hweights
  obtain ⟨operationsText, hoperations⟩ := SizeText.scaled_ok SizeText.countScales "" h.operations
  obtain ⟨memoryText, hmemory⟩ := SizeText.scaled_ok SizeText.byteScales " B" h.memory
  obtain ⟨sizeText, hsizeText⟩ := SizeText.megabytes_real_ok size
  simp [calculation, hsummary, hsize, SizeText.count, hoperations, SizeText.bytes, hmemory,
    hsizeText, bind, Except.bind, pure, Except.pure]

/-- The size of the weights comes first, and then the texts of the totals. -/
theorem calculation_error [Machine] (hsummary : Summary.ofLayers model.layers shape = .ok summary)
    (hnonneg : 0 ≤ summary.totalParameters) (h : ¬ Writable summary precision mode) :
    calculation model precision mode shape = .error
      (if overflow * 2 ^ 18 ≤ summary.totalParameters then .quotientTooLarge
        else .wholeTooLarge) := by
  by_cases hweights : overflow * 2 ^ 18 ≤ summary.totalParameters
  · rw [if_pos hweights]
    simp [calculation, hsummary, weightMegabytes_error hweights, bind, Except.bind]
  · rw [if_neg hweights]
    obtain ⟨size, hsize⟩ := weightMegabytes_ok hnonneg (not_le.mp hweights)
    by_cases hoperations : summary.totalOperations < overflow
    · have hmemory : overflow ≤
          memoryBytes summary.totalParameters (.ofValue mode) (.ofValue precision) :=
        not_lt.mp fun hmemory => h ⟨hoperations, hmemory⟩
      obtain ⟨text, htext⟩ := SizeText.scaled_ok SizeText.countScales "" hoperations
      simp [calculation, hsummary, hsize, SizeText.count, htext, SizeText.bytes_error hmemory,
        bind, Except.bind]
    · simp [calculation, hsummary, hsize, SizeText.count_error (not_lt.mp hoperations), bind,
        Except.bind]

end Totals

/-- A request whose body is accepted, with its layers, its options, and the sizes of its context. -/
structure Accepted (defaults : Defaults) (request : Request) (visit : Visit) (data : Members)
    (model : Model) (precision mode : Value) (shape : Shape) : Prop where
  body : payload request = .ok data
  layers : (readModel data visit.ids).1 = .ok model
  precision : readOption data "precision" (setting defaults request visit .precision) =
    .ok precision
  mode : readOption data "mode" (setting defaults request visit .memoryMode) = .ok mode
  shape : readShape data = .ok shape

section Accepted

variable {defaults : Defaults} {request : Request} {visit : Visit} {data : Members} {model : Model}
  {precision mode : Value} {shape : Shape}

theorem Accepted.answer [Machine]
    (h : Accepted defaults request visit data model precision mode shape) :
    model.Configured ∧
      (calculateAnswer defaults request visit).1 = calculation model precision mode shape := by
  obtain ⟨hbody, hlayers, hprecision, hmode, hshape⟩ := h
  cases hread : readModel data visit.ids with
  | mk result ids =>
    obtain rfl : result = .ok model := by rw [← hlayers, hread]
    refine ⟨readModel_configured hread, ?_⟩
    simp [calculateAnswer, hbody, hread, hprecision, hmode, hshape, bind, Except.bind]

/-- An accepted request is answered exactly if the totals of its model can be written, and fails
otherwise. -/
theorem Accepted.answered_iff [Machine]
    (h : Accepted defaults request visit data model precision mode shape) :
    ∃ summary, Summary.ofLayers model.layers shape = .ok summary ∧
      ((∃ body, Response.ofResult (calculateAnswer defaults request visit).1 = .json 200 body) ↔
        Writable summary precision mode) ∧
      (Response.ofResult (calculateAnswer defaults request visit).1 = .bare 500 ↔
        ¬ Writable summary precision mode) := by
  obtain ⟨hconfigured, hanswer⟩ := h.answer
  obtain ⟨summary, hsummary, -⟩ := Summary.ofLayers_ok hconfigured shape
  have hnonneg := Summary.totalParameters_nonneg hconfigured hsummary
  refine ⟨summary, hsummary, ?_⟩
  rw [hanswer]
  by_cases hwritable : Writable summary precision mode
  · obtain ⟨body, hbody⟩ := calculation_ok hsummary hnonneg hwritable
    simp [hbody, Response.ofResult, hwritable]
  · have hfault := calculation_error hsummary hnonneg hwritable
    have hfailed : Response.ofResult (calculation model precision mode shape) = .bare 500 := by
      rw [hfault]
      split <;> rfl
    simp [hfailed, hwritable]

end Accepted

/-- A request that posts a body to be calculated. -/
def posting (body : Members) : Request := sending "POST" .calculate (.obj body)

/-- A body with one layer, both options and a context. -/
def trainedBody : Members := [
  ("layers", .list [.obj [("type", .str "gru")]]),
  ("precision", .str "fp16"),
  ("mode", .str "training"),
  ("context", .obj [("seq_len", .int 16)])]

attribute [local instance] Machine.small

theorem accepted_trainedBody : Accepted .standard (posting trainedBody) freshVisit trainedBody
    ⟨[.ofKind "1" .gru]⟩ (.str "fp16") (.str "training") (Shape.empty.set .seqLen 16) where
  body := eq_ok_of_toOption (by decide +kernel)
  layers := rfl
  precision := rfl
  mode := rfl
  shape := rfl

theorem answered_iff_trainedBody :
    Accepted .standard (posting trainedBody) freshVisit trainedBody ⟨[.ofKind "1" .gru]⟩
        (.str "fp16") (.str "training") (Shape.empty.set .seqLen 16) ∧
      ∃ summary, Summary.ofLayers [.ofKind "1" .gru] (Shape.empty.set .seqLen 16) = .ok summary ∧
        ((∃ body, Response.ofResult
            (calculateAnswer .standard (posting trainedBody) freshVisit).1 = .json 200 body) ↔
          Writable summary (.str "fp16") (.str "training")) ∧
        (Response.ofResult (calculateAnswer .standard (posting trainedBody) freshVisit).1 =
          .bare 500 ↔ ¬ Writable summary (.str "fp16") (.str "training")) :=
  ⟨accepted_trainedBody, accepted_trainedBody.answered_iff⟩

/-- A width that is a finite number, and whose square is none. -/
def vastWidth : Binary64 := .ofRat (10 ^ 155)

def wideBody : Members := [
  ("layers", .list [.obj [("type", .str "linear"), ("config", .obj [
    ("input_dim", .real vastWidth), ("output_dim", .real vastWidth)])]])]

def wideModel : Model :=
  let width := Value.int (Number.real vastWidth).toCount
  ⟨[⟨"1", .linear, ⟨[
    ("input_dim", width), ("output_dim", width), ("use_bias", .bool true)]⟩⟩]⟩

theorem accepted_wideBody : Accepted .standard (posting wideBody) freshVisit wideBody wideModel
    (.str "fp32") (.str "inference") .empty where
  body := eq_ok_of_toOption (by decide +kernel)
  layers := eq_ok_of_toOption (by decide +kernel)
  precision := rfl
  mode := rfl
  shape := rfl

/-- Not every request that is accepted is answered. -/
theorem not_every_accepted_answered : ¬ ∀ defaults request visit data model precision mode shape,
    Accepted defaults request visit data model precision mode shape →
      ∃ body, Response.ofResult (calculateAnswer defaults request visit).1 = .json 200 body := by
  intro h
  obtain ⟨body, hbody⟩ := h _ _ _ _ _ _ _ _ accepted_wideBody
  obtain ⟨hconfigured, hanswer⟩ := accepted_wideBody.answer
  obtain ⟨summary, hsummary, htotal⟩ := Summary.ofLayers_ok hconfigured .empty
  have hvast : overflow ≤ summary.totalParameters := by
    rw [htotal]
    decide +kernel
  have hnonneg := Summary.totalParameters_nonneg hconfigured hsummary
  have hunwritable : ¬ Writable summary (.str "fp32") (.str "inference") := by
    intro hwritable
    have hmemory := hwritable.memory
    have hle := le_memoryBytes hnonneg (.ofValue (.str "inference")) (.ofValue (.str "fp32"))
    omega
  rw [hanswer, calculation_error hsummary hnonneg hunwritable] at hbody
  split at hbody <;> simp [Response.ofResult, Fault.status?] at hbody

end Service

end LayerStack
