import LayerStack.Proofs.Rounding

/-! The magnitudes that are too large for a finite double.  Between the largest double and the bound
lies one more step, and whatever is in its upper half, or halfway, is rounded up to the bound.  The
two numbers that mark the step are irreducible, so that no proof writes out their digits. -/

namespace LayerStack.Binary64

/-- The largest magnitude of a double. -/
@[irreducible] def largest : Nat := (2 ^ 53 - 1) * 2 ^ 971

/-- The least magnitude without a finite double near it, halfway between the largest double and the
bound. -/
@[irreducible] def overflow : Nat := 2 ^ 1024 - 2 ^ 970

/-- A magnitude above the largest double has the exponent of that double. -/
theorem floorLog2_of_largest_lt {q : Rat} (hlow : largest < q) (hhigh : q < overflow) :
    floorLog2 q = 1023 := by
  have hpos : 0 < q := (Nat.cast_nonneg largest).trans_lt hlow
  obtain ⟨hlower, hupper⟩ := floorLog2_spec hpos
  have hbelow : (2 : Rat) ^ (1023 : Int) ≤ largest := by decide +kernel
  have habove : (overflow : Rat) ≤ 2 ^ (1024 : Int) := by decide +kernel
  have hlt := two_zpow_lt.mp (hbelow.trans_lt (hlow.trans hupper))
  have hgt := two_zpow_lt.mp (hlower.trans_lt (hhigh.trans_le habove))
  omega

theorem nearest_of_largest_lt {q : Rat} (hlow : largest < q) (hhigh : q < overflow) :
    nearest q = largest := by
  have hspacing : spacing q = 2 ^ (971 : Int) := by
    rw [spacing, floorLog2_of_largest_lt hlow hhigh]
    rfl
  have hmultiple : (largest : Rat) = ((2 ^ 53 - 1 : Int) : Rat) * spacing q := by
    rw [hspacing]
    decide +kernel
  have hhalf : (overflow : Rat) - largest = 2 ^ (971 : Int) / 2 := by decide +kernel
  refine nearest_of_near hmultiple ?_
  rw [hspacing, abs_of_pos (sub_pos.mpr hlow)]
  linarith

/-- The magnitudes with a finite double near them. -/
theorem nearest_lt_bound {q : Rat} (h : 0 ≤ q) : nearest q < bound ↔ q < overflow := by
  have hlargest : nearest largest < bound := by decide +kernel
  have hoverflow : bound ≤ nearest overflow := by decide +kernel
  constructor
  · intro hlt
    by_contra hge
    have hmono := nearest_mono (Nat.cast_nonneg overflow) (not_lt.mp hge)
    exact absurd hlt (not_lt.mpr (hoverflow.trans hmono))
  · intro hlt
    rcases le_or_gt q largest with hle | hgt
    · exact (nearest_mono h hle).trans_lt hlargest
    · rw [nearest_of_largest_lt hgt hlt]
      decide +kernel

theorem isFinite_ofRat_iff {q : Rat} : (ofRat q).isFinite ↔ |q| < overflow := by
  have habs : q.abs = |q| := by
    rcases le_total 0 q with h | h
    · rw [Rat.abs_of_nonneg h, abs_of_nonneg h]
    · rw [Rat.abs_of_nonpos h, abs_of_nonpos h]
  rw [isFinite_ofRat, habs, nearest_lt_bound (abs_nonneg q)]

theorem isSome_ofInt?_iff {n : Int} : (ofInt? n).isSome ↔ |n| < overflow := by
  have hfinite : (ofInt? n).isSome ↔ (ofRat n).isFinite := by simp [ofInt?]
  rw [hfinite, isFinite_ofRat_iff]
  norm_cast

theorem isSome_quotient?_iff {n : Int} {d : Nat} (h : 0 < d) :
    (quotient? n d).isSome ↔ |n| < overflow * d := by
  have hfinite : (quotient? n d).isSome ↔ (ofRat (n / d)).isFinite := by simp [quotient?]
  have hd : (0 : Rat) < d := by exact_mod_cast h
  rw [hfinite, isFinite_ofRat_iff, abs_div, abs_of_pos hd, div_lt_iff₀ hd]
  norm_cast

end LayerStack.Binary64
