import LayerStack.Proofs.Rounding

/-! Doubles near exact values.  What is computed from magnitudes is the nearest double to the exact
result, as long as that is below the bound.  A rounding moves a number by half a step at most, which
from one on is its part in `2 ^ 53`, and leaves whole numbers of 53 bits as they are. -/

namespace LayerStack

theorem abs_roundEven_sub_le (q : Rat) : |(roundEven q : Rat) - q| ≤ 1 / 2 := by
  have hlow := Rat.floor_le q
  have hhigh := Rat.lt_floor (x := q)
  rw [abs_le]
  simp only [roundEven]
  split
  · constructor <;> linarith
  next hlow' =>
    split
    · push_cast
      constructor <;> linarith
    next hhigh' =>
      -- Halfway, either neighbour is as near.
      have hhalf : q - q.floor = 1 / 2 := le_antisymm (not_lt.mp hhigh') (not_lt.mp hlow')
      split
      · constructor <;> linarith
      · push_cast
        constructor <;> linarith

namespace Binary64

/-! ### Results of operations -/

theorem ofMagnitude_finite {q : Rat} (hq : 0 ≤ q) (h : nearest q < bound) (negative : Bool) :
    ∃ hm, ofMagnitude negative q = .finite negative (nearest q) hm :=
  ⟨(isMagnitude_nearest hq).mpr h, ofMagnitude_eq_finite _⟩

theorem ofRat_finite {q : Rat} (hq : 0 ≤ q) (h : (ofRat q).isFinite) :
    ∃ hm, ofRat q = .finite false (nearest q) hm := by
  rw [isFinite_ofRat, Rat.abs_of_nonneg hq] at h
  rw [ofRat, Rat.abs_of_nonneg hq, decide_eq_false (not_lt.mpr hq)]
  exact ofMagnitude_finite hq h false

theorem ofInt?_finite {n : Int} (hn : 0 ≤ n) (h : (ofInt? n).isSome) :
    ∃ hm, ofInt? n = some (.finite false (nearest n) hm) := by
  have hfinite : (ofRat n).isFinite := by simpa [ofInt?] using h
  obtain ⟨hm, hrat⟩ := ofRat_finite (by exact_mod_cast hn) hfinite
  exact ⟨hm, by rw [ofInt?, if_pos hfinite, hrat]⟩

theorem isSome_ofInt?_mono {m n : Int} (hm : 0 ≤ m) (h : m ≤ n) (hn : (ofInt? n).isSome) :
    (ofInt? m).isSome := by
  have hzero : (0 : Rat) ≤ m := by exact_mod_cast hm
  have hle : (m : Rat) ≤ n := by exact_mod_cast h
  rw [isSome_ofInt?, Rat.abs_of_nonneg (hzero.trans hle)] at hn
  rw [isSome_ofInt?, Rat.abs_of_nonneg hzero]
  exact (nearest_mono hzero hle).trans_lt hn

theorem quotient?_finite {n : Int} (hn : 0 ≤ n) {d : Nat} (h : (quotient? n d).isSome) :
    ∃ hm, quotient? n d = some (.finite false (nearest (n / d)) hm) := by
  have hfinite : (ofRat (n / d)).isFinite := by simpa [quotient?] using h
  have hnonneg : (0 : Rat) ≤ n / d := div_nonneg (by exact_mod_cast hn) (Nat.cast_nonneg d)
  obtain ⟨hm, hrat⟩ := ofRat_finite hnonneg hfinite
  exact ⟨hm, by rw [quotient?, if_pos hfinite, hrat]⟩

/-- A double is what its own value is rounded to. -/
theorem ofRat_self {m : Rat} (hm : IsMagnitude m) : ofRat m = .finite false m hm := by
  rw [ofRat, Rat.abs_of_nonneg hm.1, decide_eq_false (not_lt.mpr hm.1), ofMagnitude_self hm]

/-- The quotient of a finite double by a whole number is finite. -/
theorem divNat_finite {m : Rat} (hm : IsMagnitude m) {n : Nat} (h : 0 < n) :
    ∃ hq, divNat (.finite false m hm) n = .finite false (nearest (m / n)) hq := by
  have hone : (1 : Rat) ≤ n := by exact_mod_cast h
  have hnonneg : 0 ≤ m / n := div_nonneg hm.1 (by linarith)
  have hbound : nearest (m / n) < bound := by
    calc nearest (m / n) ≤ nearest m := nearest_mono hnonneg (div_le_self hm.1 hone)
      _ = m := hm.2.2
      _ < bound := hm.2.1
  exact ofMagnitude_finite hnonneg hbound false

/-! ### How far a rounding goes -/

theorem abs_nearest_sub_le (q : Rat) : |nearest q - q| ≤ spacing q / 2 := by
  have hpos := spacing_pos q
  have hround := mul_le_mul_of_nonneg_right (abs_roundEven_sub_le (q / spacing q)) hpos.le
  have hsub : nearest q - q = (roundEven (q / spacing q) - q / spacing q) * spacing q := by
    rw [sub_mul, div_mul_cancel₀ _ hpos.ne', nearest]
  rw [hsub, abs_mul, abs_of_pos hpos]
  linarith

theorem abs_nearest_sub_le_of_one_le {q : Rat} (h : 1 ≤ q) : |nearest q - q| ≤ q / 2 ^ 53 := by
  obtain ⟨hlow, hhigh⟩ := floorLog2_spec (zero_lt_one.trans_le h)
  have hlog : (0 : Int) < floorLog2 q + 1 :=
    two_zpow_lt.mp ((zpow_zero (2 : Rat)).trans_lt (h.trans_lt hhigh))
  have hspacing : spacing q = 2 ^ (floorLog2 q - 52) := by
    rw [spacing, max_eq_left (by omega)]
  have hsteps : (2 : Rat) ^ floorLog2 q * 2 = 2 ^ (floorLog2 q - 52) * 2 ^ 53 := by
    rw [← zpow_add_one₀ (by norm_num), two_zpow_split]
  have hhalf := abs_nearest_sub_le q
  rw [hspacing] at hhalf
  linarith

/-- Whole numbers of 53 bits are doubles. -/
theorem nearest_natCast {n : Nat} (h : n < 2 ^ 53) : nearest n = n := by
  rcases n.eq_zero_or_pos with rfl | hpos
  · simp
  have hupper : (n : Rat) < 2 ^ (53 : Int) := by exact_mod_cast h
  have hlog : floorLog2 n < 53 :=
    two_zpow_lt.mp ((floorLog2_spec (by exact_mod_cast hpos)).1.trans_lt hupper)
  obtain ⟨k, hk⟩ := two_zpow_multiple (show max (floorLog2 n - 52) (-1074) ≤ 0 by omega)
  have hone : (1 : Rat) = k * spacing n := by rw [spacing, ← hk, zpow_zero]
  refine nearest_of_multiple (n := n * k) ?_
  rw [Int.cast_mul, Int.cast_natCast, mul_assoc, ← hone, mul_one]

end Binary64

end LayerStack
