import LayerStack.Proofs.LayerCounts
import LayerStack.Proofs.Results
import LayerStack.Report.Summary

/-! What a summary says.  Its rows are the counts of the layers in their order, and its totals the
sums of them; a share is the quotient of two whole numbers, which is never above one. -/

namespace LayerStack

namespace Layer

/-- The parameters of a layer with the values of its fields. -/
def parameterCount (layer : Layer) : Int := layer.kind.parametersOf layer.config

/-- The operations of a layer with the values of its fields. -/
def operationCount (layer : Layer) (shape : Shape) : Int :=
  layer.kind.operationsOf layer.config shape

end Layer

namespace Summary

theorem total_eq (counts : List Int) : total counts = counts.sum := by
  rw [total, List.sum_eq_foldl]

/-- The percentage that `part` is of `whole`, which is zero if there is nothing to share. -/
def shareOf (part whole : Int) : Binary64 :=
  if 0 < whole then (Binary64.ofRat (part / whole)).mulNat 100 else .zero

/-- The ratio of a part to its whole has a finite double near it, however large the two are. -/
theorem isFinite_ratio {part whole : Int} (hpart : 0 ≤ part) (hle : part ≤ whole) :
    (Binary64.ofRat (part / whole)).isFinite = true := by
  have hwhole : (0 : Rat) ≤ whole := by exact_mod_cast hpart.trans hle
  have hnonneg : (0 : Rat) ≤ part / whole := div_nonneg (by exact_mod_cast hpart) hwhole
  have hratio : (part : Rat) / whole ≤ 1 := div_le_one_of_le₀ (by exact_mod_cast hle) hwhole
  have hone : Binary64.nearest 1 < Binary64.bound := by decide +kernel
  rw [Binary64.isFinite_ofRat, Rat.abs_of_nonneg hnonneg]
  exact (Binary64.nearest_mono hnonneg hratio).trans_lt hone

theorem share_eq {part whole : Int} (hpart : 0 ≤ part) (hle : part ≤ whole) :
    share part whole = .ok (shareOf part whole) := by
  rw [share, shareOf]
  split
  next hpos =>
    have hwhole : (whole.toNat : Rat) = whole := by exact_mod_cast Int.toNat_of_nonneg hpos.le
    simp [Binary64.quotient?, hwhole, isFinite_ratio hpart hle]
  next => rfl

/-- The row of a layer in a model with `whole` parameters. -/
def rowOf (shape : Shape) (whole : Int) (layer : Layer) : SummaryRow :=
  ⟨layer.id, layer.kind, layer.parameterCount, layer.operationCount shape,
    shareOf layer.parameterCount whole⟩

/-- The summary of layers that are complete. -/
def describe (layers : List Layer) (shape : Shape) : Summary :=
  let whole := (layers.map Layer.parameterCount).sum
  ⟨whole, (layers.map fun layer => layer.operationCount shape).sum,
    layers.map (rowOf shape whole)⟩

theorem count_eq [Machine] {layer : Layer} (h : layer.config.Complete layer.kind) (shape : Shape) :
    count shape layer = .ok ⟨layer, layer.parameterCount, layer.operationCount shape⟩ := by
  simp [count, h.parameters_eq, h.operations_eq, Layer.parameterCount, Layer.operationCount]

/-- A layer has a part of all the parameters. -/
theorem parameterCount_bounds {layers : List Layer}
    (h : ∀ layer ∈ layers, layer.config.Complete layer.kind) {layer : Layer}
    (hlayer : layer ∈ layers) :
    0 ≤ layer.parameterCount ∧
      layer.parameterCount ≤ (layers.map Layer.parameterCount).sum := by
  have hnonneg : ∀ layer ∈ layers, 0 ≤ layer.parameterCount := fun layer hlayer =>
    (h layer hlayer).parametersOf_nonneg
  exact ⟨hnonneg layer hlayer,
    List.single_le_sum (List.forall_mem_map.mpr hnonneg) _ (List.mem_map_of_mem hlayer)⟩

theorem ofLayers_eq [Machine] {layers : List Layer}
    (h : ∀ layer ∈ layers, layer.config.Complete layer.kind) (shape : Shape) :
    ofLayers layers shape = .ok (describe layers shape) := by
  have hcounts := mapM_eq_map fun layer hlayer => count_eq (h layer hlayer) shape
  have hrows : (layers.map fun layer =>
      (⟨layer, layer.parameterCount, layer.operationCount shape⟩ : CountedLayer)).mapM
        (row (layers.map Layer.parameterCount).sum) =
      .ok (layers.map (rowOf shape (layers.map Layer.parameterCount).sum)) := by
    rw [List.mapM_map]
    refine mapM_eq_map fun layer hlayer => ?_
    obtain ⟨hnonneg, hle⟩ := parameterCount_bounds h hlayer
    simp [row, share_eq hnonneg hle, rowOf]
  simp [ofLayers, hcounts, total_eq, Function.comp_def, hrows, describe]

end Summary

end LayerStack
