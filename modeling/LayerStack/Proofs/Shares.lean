import LayerStack.Proofs.Doubles
import LayerStack.Proofs.Session
import LayerStack.Proofs.Summaries

/-! The shares that layers have of the parameters.  A share is rounded twice, first the quotient of
two counts and then a hundred times the double near it.  Counts may be far out of the range of
doubles, but the quotient is never above one; and as both roundings keep order and leave the ends of
their range as they are, shares are ordered as the counts are, between nothing and a hundred. -/

namespace LayerStack

namespace Summary

open Binary64 (nearest nearest_mono nearest_nonneg nearest_natCast)

/-! ### One share -/

/-- What two roundings make of a share in percent. -/
def percentage (part whole : Int) : Rat := nearest (nearest (part / whole) * 100)

@[simp] theorem percentage_zero (whole : Int) : percentage 0 whole = 0 := by simp [percentage]

theorem percentage_self {whole : Int} (h : 0 < whole) : percentage whole whole = 100 := by
  have hone : nearest 1 = 1 := by exact_mod_cast nearest_natCast (n := 1) (by decide)
  have hhundred : nearest 100 = 100 := by exact_mod_cast nearest_natCast (n := 100) (by decide)
  rw [percentage, div_self (by exact_mod_cast h.ne'), hone, one_mul, hhundred]

theorem percentage_mono {part part' whole : Int} (hpart : 0 ≤ part) (h : part ≤ part')
    (hwhole : 0 ≤ whole) : percentage part whole ≤ percentage part' whole := by
  have hwhole' : (0 : Rat) ≤ whole := by exact_mod_cast hwhole
  have hzero : (0 : Rat) ≤ part / whole := div_nonneg (by exact_mod_cast hpart) hwhole'
  have hratio : nearest (part / whole) ≤ nearest (part' / whole) :=
    nearest_mono hzero (div_le_div_of_nonneg_right (by exact_mod_cast h) hwhole')
  exact nearest_mono (mul_nonneg (nearest_nonneg hzero) (by norm_num))
    (mul_le_mul_of_nonneg_right hratio (by norm_num))

theorem percentage_nonneg {part whole : Int} (hpart : 0 ≤ part) (hwhole : 0 ≤ whole) :
    0 ≤ percentage part whole :=
  percentage_zero whole ▸ percentage_mono le_rfl hpart hwhole

theorem percentage_le {part whole : Int} (hpart : 0 ≤ part) (h : part ≤ whole) :
    percentage part whole ≤ 100 := by
  rcases (hpart.trans h).eq_or_lt with rfl | hpos
  · simp [percentage]
  · exact percentage_self hpos ▸ percentage_mono hpart h hpos.le

/-- A share is a finite double without a minus sign, also where there is nothing to share. -/
theorem shareOf_eq_finite {part whole : Int} (hpart : 0 ≤ part) (h : part ≤ whole) :
    ∃ hm, shareOf part whole = .finite false (percentage part whole) hm := by
  rcases (hpart.trans h).eq_or_lt with rfl | hpos
  · obtain rfl : part = 0 := le_antisymm h hpart
    have hzero : percentage 0 0 = 0 := percentage_zero 0
    exact ⟨hzero ▸ Binary64.isMagnitude_zero, by simp [shareOf, Binary64.zero, Binary64.signedZero]⟩
  have hratio : (0 : Rat) ≤ part / whole :=
    div_nonneg (by exact_mod_cast hpart) (by exact_mod_cast hpos.le)
  obtain ⟨hm, hfinite⟩ := Binary64.ofRat_finite hratio (isFinite_ratio hpart h)
  have hbound : nearest (nearest (part / whole) * (100 : Nat)) < Binary64.bound :=
    (percentage_le hpart h).trans_lt (by decide +kernel)
  obtain ⟨hm', hproduct⟩ :=
    Binary64.ofMagnitude_finite (mul_nonneg hm.1 (Nat.cast_nonneg 100)) hbound false
  exact ⟨hm', by rw [shareOf, if_pos hpos, hfinite, Binary64.mulNat, hproduct]; rfl⟩

theorem shareOf_zero {whole : Int} (h : 0 ≤ whole) : shareOf 0 whole = .zero := by
  obtain ⟨hm, hshare⟩ := shareOf_eq_finite le_rfl h
  simp [hshare, Binary64.zero, Binary64.signedZero]

theorem shareOf_self {whole : Int} (h : 0 < whole) : shareOf whole whole = .ofRat 100 := by
  obtain ⟨hm, hshare⟩ := shareOf_eq_finite h.le le_rfl
  simp only [percentage_self h] at hm hshare
  rw [hshare, Binary64.ofRat_self hm]

theorem toRat?_shareOf {part whole : Int} (hpart : 0 ≤ part) (h : part ≤ whole) :
    (shareOf part whole).toRat? = some (percentage part whole) := by
  obtain ⟨hm, hshare⟩ := shareOf_eq_finite hpart h
  rw [hshare]
  rfl

/-! ### Summaries -/

/-- The shares in a summary are ordered as the parameters of its rows are, and are exact at both
ends: nothing is zero percent, and all there is a hundred. -/
structure Apportioned (summary : Summary) : Prop where
  bounds : ∀ r ∈ summary.rows, ∃ q, r.share.toRat? = some q ∧ 0 ≤ q ∧ q ≤ 100
  mono : ∀ r ∈ summary.rows, ∀ s ∈ summary.rows, r.parameters ≤ s.parameters →
    ∃ p q, r.share.toRat? = some p ∧ s.share.toRat? = some q ∧ p ≤ q
  zero : ∀ r ∈ summary.rows, r.parameters = 0 → r.share = .zero
  hundred : 0 < summary.totalParameters → ∀ r ∈ summary.rows,
    r.parameters = summary.totalParameters → r.share = .ofRat 100
  nothing : summary.totalParameters = 0 → ∀ r ∈ summary.rows, r.share = .zero

theorem apportioned_describe {layers : List Layer}
    (h : ∀ layer ∈ layers, layer.config.Complete layer.kind) (shape : Shape) :
    (describe layers shape).Apportioned := by
  have hbounds : ∀ layer ∈ layers, 0 ≤ layer.parameterCount ∧
      layer.parameterCount ≤ (layers.map Layer.parameterCount).sum :=
    fun _ hlayer => parameterCount_bounds h hlayer
  constructor <;> simp only [describe, List.forall_mem_map, rowOf]
  case bounds =>
    intro layer hlayer
    obtain ⟨hnonneg, hle⟩ := hbounds layer hlayer
    refine ⟨_, toRat?_shareOf hnonneg hle, ?_, percentage_le hnonneg hle⟩
    exact percentage_nonneg hnonneg (hnonneg.trans hle)
  case mono =>
    intro layer hlayer other hother hless
    obtain ⟨hnonneg, hle⟩ := hbounds layer hlayer
    obtain ⟨hnonneg', hle'⟩ := hbounds other hother
    exact ⟨_, _, toRat?_shareOf hnonneg hle, toRat?_shareOf hnonneg' hle',
      percentage_mono hnonneg hless (hnonneg.trans hle)⟩
  case zero =>
    intro layer hlayer hnone
    obtain ⟨hnonneg, hle⟩ := hbounds layer hlayer
    rw [hnone]
    exact shareOf_zero (hnonneg.trans hle)
  case hundred =>
    intro hpos layer hlayer hall
    rw [hall]
    exact shareOf_self hpos
  case nothing =>
    intro hzero layer hlayer
    rw [hzero, shareOf, if_neg (lt_irrefl 0)]

end Summary

/-- The summary of a model of a session has a row for each layer in their order, with the parameters
of the layer and its share of all of them, in every shape. -/
theorem Model.Reachable.shares_apportioned [Machine] {model : Model} (h : model.Reachable)
    (shape : Shape) :
    ∃ summary, Summary.ofLayers model.layers shape = .ok summary ∧
      List.Forall₂ (fun layer r => layer.id = r.id ∧
        layer.kind.parameters layer.config = .ok r.parameters) model.layers summary.rows ∧
      summary.totalParameters = (summary.rows.map SummaryRow.parameters).sum ∧
      summary.Apportioned := by
  have hcomplete : ∀ layer ∈ model.layers, layer.config.Complete layer.kind := fun layer hlayer =>
    (h.configured layer hlayer).complete
  refine ⟨_, Summary.ofLayers_eq hcomplete shape, ?_, ?_,
    Summary.apportioned_describe hcomplete shape⟩
  · rw [Summary.describe, List.forall₂_map_right_iff, List.forall₂_same]
    exact fun layer hlayer => ⟨rfl, (hcomplete layer hlayer).parameters_eq⟩
  · simp [Summary.describe, Summary.rowOf, Function.comp_def]

/-- A layer with more parameters than any double tells, one with a few, and one with none. -/
def unevenSession : List Edit := [
  .add (.str "linear") none (some "a"),
  .update (some "a") "input_dim" (.int (10 ^ 200)),
  .update (some "a") "output_dim" (.int (10 ^ 200)),
  .add (.str "linear") none none,
  .add (.str "dropout") none none]

def unevenModel : Model := ((Workspace.start .counting).run unevenSession).model

attribute [local instance] Machine.small

theorem shares_apportioned_unevenModel :
    unevenModel.Reachable ∧ ∃ summary,
      Summary.ofLayers unevenModel.layers .empty = .ok summary ∧
      List.Forall₂ (fun layer r => layer.id = r.id ∧
        layer.kind.parameters layer.config = .ok r.parameters) unevenModel.layers summary.rows ∧
      summary.totalParameters = (summary.rows.map SummaryRow.parameters).sum ∧
      summary.Apportioned :=
  have h : unevenModel.Reachable := ⟨.counting, unevenSession, rfl⟩
  ⟨h, h.shares_apportioned .empty⟩

end LayerStack
