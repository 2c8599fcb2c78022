import LayerStack.Numeric.Binary64
import Mathlib.Data.Int.Log
import Mathlib.Data.Rat.Floor
import Mathlib.Tactic.FieldSimp
import Mathlib.Tactic.Linarith
import Mathlib.Tactic.Positivity

/-! Rounding keeps order and is settled after one pass: `roundEven` and `nearest` are monotone, and
what `nearest` gives is its own nearest double.  So whatever lies below a finite double has a finite
double nearest to it.  And a double is the nearest one to all within its part in `2 ^ 54`. -/

namespace LayerStack

/-! ### Rounding to whole numbers -/

theorem floor_le_roundEven (q : Rat) : q.floor ≤ roundEven q := by
  simp only [roundEven]
  split
  · exact le_refl _
  · split
    · omega
    · split <;> omega

theorem roundEven_le_floor_add_one (q : Rat) : roundEven q ≤ q.floor + 1 := by
  simp only [roundEven]
  split
  · omega
  · split
    · exact le_refl _
    · split <;> omega

@[simp] theorem roundEven_intCast (n : Int) : roundEven (n : Rat) = n := by
  simp [roundEven]

@[simp] theorem roundEven_zero : roundEven 0 = 0 := roundEven_intCast 0

theorem roundEven_of_lt {q : Rat} (h : q - q.floor < 1 / 2) : roundEven q = q.floor := by
  simp only [roundEven]
  rw [if_pos h]

theorem roundEven_of_gt {q : Rat} (h : 1 / 2 < q - q.floor) : roundEven q = q.floor + 1 := by
  simp only [roundEven]
  rw [if_neg (by linarith), if_pos h]

theorem roundEven_mono {p q : Rat} (h : p ≤ q) : roundEven p ≤ roundEven q := by
  have hp := roundEven_le_floor_add_one p
  have hq := floor_le_roundEven q
  rcases (Rat.floor_monotone h).lt_or_eq with hlt | heq
  · omega
  by_cases hlow : p - p.floor < 1 / 2
  · rw [roundEven_of_lt hlow]
    omega
  by_cases hhigh : 1 / 2 < q - q.floor
  · rw [roundEven_of_gt hhigh]
    omega
  -- Both are halfway between the same two whole numbers, so that they are one number.
  · rw [heq] at hlow
    rw [show p = q by linarith]

theorem roundEven_of_near {q : Rat} {n : Int} (h : |q - n| < 1 / 2) : roundEven q = n := by
  obtain ⟨hlow, hhigh⟩ := abs_lt.mp h
  rcases le_or_gt (n : Rat) q with hle | hlt
  · have hfloor : q.floor = n := Int.floor_eq_iff.mpr ⟨hle, by linarith⟩
    rw [roundEven_of_lt (by rw [hfloor]; linarith), hfloor]
  · have hbelow : ((n - 1 : Int) : Rat) ≤ q ∧ q < ((n - 1 : Int) : Rat) + 1 := by
      push_cast
      exact ⟨by linarith, by linarith⟩
    have hfloor : q.floor = n - 1 := Int.floor_eq_iff.mpr hbelow
    rw [roundEven_of_gt (by rw [hfloor]; push_cast; linarith), hfloor]
    omega

/-! ### Exponents -/

theorem two_zpow_pos (k : Int) : (0 : Rat) < 2 ^ k := zpow_pos (by norm_num) k

theorem two_zpow_le {j k : Int} : (2 : Rat) ^ j ≤ 2 ^ k ↔ j ≤ k :=
  zpow_le_zpow_iff_right₀ (by norm_num)

theorem two_zpow_lt {j k : Int} : (2 : Rat) ^ j < 2 ^ k ↔ j < k :=
  zpow_lt_zpow_iff_right₀ (by norm_num)

/-- A positive fraction lies between powers of a base as its two parts do. -/
theorem quotient_between_powers {b q : Rat} (hb : 1 < b) (h : 0 < q) {m n : Int}
    (hnum : b ^ m ≤ q.num.natAbs ∧ (q.num.natAbs : Rat) < b ^ (m + 1))
    (hden : b ^ n ≤ q.den ∧ (q.den : Rat) < b ^ (n + 1)) :
    b ^ (m - n - 1) ≤ q ∧ q < b ^ (m - n + 1) := by
  have hpos : 0 < b := by linarith
  have hq : q = (q.num.natAbs : Rat) / q.den := by
    conv_lhs => rw [← Rat.num_div_den q]
    rw [Nat.cast_natAbs, abs_of_pos (Rat.num_pos.mpr h)]
  have hd : (0 : Rat) < q.den := by exact_mod_cast q.den_pos
  constructor
  · rw [hq, le_div_iff₀ hd]
    calc b ^ (m - n - 1) * q.den ≤ b ^ (m - n - 1) * b ^ (n + 1) := by
          exact mul_le_mul_of_nonneg_left hden.2.le (zpow_pos hpos _).le
      _ = b ^ m := by
        rw [← zpow_add₀ hpos.ne']
        congr 1
        omega
      _ ≤ q.num.natAbs := hnum.1
  · rw [hq, div_lt_iff₀ hd]
    calc (q.num.natAbs : Rat) < b ^ (m + 1) := hnum.2
      _ = b ^ (m - n + 1) * b ^ n := by
        rw [← zpow_add₀ hpos.ne']
        congr 1
        omega
      _ ≤ b ^ (m - n + 1) * q.den := by
        exact mul_le_mul_of_nonneg_left hden.1 (zpow_pos hpos _).le

theorem floorLog2_spec {q : Rat} (h : 0 < q) :
    (2 : Rat) ^ floorLog2 q ≤ q ∧ q < (2 : Rat) ^ (floorLog2 q + 1) := by
  have hn : q.num.natAbs ≠ 0 := by
    have := Rat.num_pos.mpr h
    omega
  have hlog : ∀ n : Nat, n ≠ 0 →
      (2 : Rat) ^ (n.log2 : Int) ≤ n ∧ (n : Rat) < 2 ^ ((n.log2 : Int) + 1) := by
    intro n hn
    exact ⟨by exact_mod_cast Nat.log2_self_le hn,
      by exact_mod_cast (Nat.lt_log2_self : _ < 2 ^ (n.log2 + 1))⟩
  obtain ⟨hlower, hupper⟩ :=
    quotient_between_powers (by norm_num) h (hlog _ hn) (hlog _ q.den_nz)
  simp only [floorLog2]
  split
  · next hle => exact ⟨hle, hupper⟩
  · next hgt => exact ⟨hlower, by rw [Int.sub_add_cancel]; exact not_le.mp hgt⟩

theorem floorLog2_mono {p q : Rat} (hp : 0 < p) (h : p ≤ q) : floorLog2 p ≤ floorLog2 q := by
  have hlow := (floorLog2_spec hp).1
  have hhigh := (floorLog2_spec (hp.trans_le h)).2
  have := two_zpow_lt.mp (hlow.trans_lt (h.trans_lt hhigh))
  omega

theorem digitCount_spec {n : Nat} (hn : n ≠ 0) :
    (10 : Rat) ^ ((digitCount n : Int) - 1) ≤ n ∧
      (n : Rat) < 10 ^ ((digitCount n : Int) - 1 + 1) := by
  have hpos : 0 < digitCount n := Nat.length_toDigits_pos
  obtain ⟨k, hk⟩ : ∃ k, digitCount n = k + 1 := ⟨digitCount n - 1, by omega⟩
  have hupper : n < 10 ^ (k + 1) :=
    (Nat.length_toDigits_le_iff (by decide) k.succ_pos).mp hk.le
  have hlower : 10 ^ k ≤ n := by
    rcases k.eq_zero_or_pos with rfl | hkpos
    · omega
    · by_contra hlt
      have hle : digitCount n ≤ k :=
        (Nat.length_toDigits_le_iff (by decide) hkpos).mpr (not_le.mp hlt)
      omega
  rw [hk, Nat.cast_add, Nat.cast_one, Int.add_sub_cancel]
  exact ⟨by exact_mod_cast hlower, by exact_mod_cast hupper⟩

theorem floorLog10_spec {q : Rat} (h : 0 < q) :
    (10 : Rat) ^ floorLog10 q ≤ q ∧ q < (10 : Rat) ^ (floorLog10 q + 1) := by
  have hn : q.num.natAbs ≠ 0 := by
    have := Rat.num_pos.mpr h
    omega
  have hbetween :=
    quotient_between_powers (by norm_num) h (digitCount_spec hn) (digitCount_spec q.den_nz)
  rw [sub_sub_sub_cancel_right] at hbetween
  simp only [floorLog10]
  split
  · next hle => exact ⟨hle, hbetween.2⟩
  · next hgt => exact ⟨hbetween.1, by rw [Int.sub_add_cancel]; exact not_le.mp hgt⟩

namespace Binary64

/-! ### Rounding to doubles -/

theorem spacing_pos (q : Rat) : 0 < spacing q := two_zpow_pos _

@[simp] theorem nearest_zero : nearest 0 = 0 := by simp [nearest]

theorem nearest_nonneg {q : Rat} (h : 0 ≤ q) : 0 ≤ nearest q := by
  have hround : roundEven 0 ≤ roundEven (q / spacing q) :=
    roundEven_mono (div_nonneg h (spacing_pos q).le)
  rw [roundEven_zero] at hround
  exact mul_nonneg (by exact_mod_cast hround) (spacing_pos q).le

theorem two_zpow_multiple {j k : Int} (h : j ≤ k) : ∃ n : Int, (2 : Rat) ^ k = n * 2 ^ j := by
  refine ⟨2 ^ (k - j).toNat, ?_⟩
  rw [Int.cast_pow, Int.cast_ofNat, ← zpow_natCast, ← zpow_add₀ (by norm_num)]
  congr 1
  omega

theorem nearest_le {q c : Rat} {n : Int} (hc : c = n * spacing q) (h : q ≤ c) : nearest q ≤ c := by
  have hpos := spacing_pos q
  have hround : roundEven (q / spacing q) ≤ n := by
    rw [← roundEven_intCast n]
    exact roundEven_mono ((div_le_iff₀ hpos).mpr (hc ▸ h))
  rw [hc]
  exact mul_le_mul_of_nonneg_right (by exact_mod_cast hround) hpos.le

theorem le_nearest {q c : Rat} {n : Int} (hc : c = n * spacing q) (h : c ≤ q) : c ≤ nearest q := by
  have hpos := spacing_pos q
  have hround : n ≤ roundEven (q / spacing q) := by
    rw [← roundEven_intCast n]
    exact roundEven_mono ((le_div_iff₀ hpos).mpr (hc ▸ h))
  rw [hc]
  exact mul_le_mul_of_nonneg_right (by exact_mod_cast hround) hpos.le

/-- A multiple of its own spacing is a double already. -/
theorem nearest_of_multiple {q : Rat} {n : Int} (h : q = n * spacing q) : nearest q = q :=
  le_antisymm (nearest_le h (le_refl q)) (le_nearest h (le_refl q))

theorem nearest_mono {p q : Rat} (hp : 0 ≤ p) (h : p ≤ q) : nearest p ≤ nearest q := by
  rcases hp.eq_or_lt with rfl | hp
  · rw [nearest_zero]
    exact nearest_nonneg h
  have hlog := floorLog2_mono hp h
  by_cases hsame : max (floorLog2 p - 52) (-1074) = max (floorLog2 q - 52) (-1074)
  · have hspacing : spacing p = spacing q := by rw [spacing, spacing, hsame]
    have hround : roundEven (p / spacing q) ≤ roundEven (q / spacing q) :=
      roundEven_mono (div_le_div_of_nonneg_right h (spacing_pos q).le)
    rw [nearest, nearest, hspacing]
    exact mul_le_mul_of_nonneg_right (by exact_mod_cast hround) (spacing_pos q).le
  -- The power of two where the spacing changes lies between them, and is a multiple of both.
  · obtain ⟨m, hm⟩ := two_zpow_multiple
      (show max (floorLog2 p - 52) (-1074) ≤ floorLog2 q by omega)
    obtain ⟨n, hn⟩ := two_zpow_multiple
      (show max (floorLog2 q - 52) (-1074) ≤ floorLog2 q by omega)
    have hbelow : p ≤ 2 ^ floorLog2 q :=
      (floorLog2_spec hp).2.le.trans (two_zpow_le.mpr (by omega))
    exact (nearest_le hm hbelow).trans (le_nearest hn (floorLog2_spec (hp.trans_le h)).1)

theorem nearest_nearest {q : Rat} (hq : 0 ≤ q) : nearest (nearest q) = nearest q := by
  rcases hq.eq_or_lt with rfl | hq
  · simp
  rcases (nearest_nonneg hq.le).eq_or_lt with hzero | hpos
  · rw [← hzero, nearest_zero]
  have hself : nearest q = roundEven (q / spacing q) * spacing q := rfl
  generalize nearest q = p at hself hpos
  by_cases hfine : max (floorLog2 p - 52) (-1074) ≤ max (floorLog2 q - 52) (-1074)
  · obtain ⟨m, hm⟩ := two_zpow_multiple hfine
    refine nearest_of_multiple (n := roundEven (q / spacing q) * m) ?_
    have hspacing : spacing q = m * spacing p := hm
    rw [Int.cast_mul, mul_assoc, ← hspacing, ← hself]
  -- The rounded value can have a coarser spacing only if it is the next power of two.
  · obtain ⟨n, hn⟩ := two_zpow_multiple
      (show max (floorLog2 q - 52) (-1074) ≤ max (floorLog2 q + 1) (-1074) by omega)
    have habove : p ≤ 2 ^ max (floorLog2 q + 1) (-1074) := by
      have hle := nearest_le hn ((floorLog2_spec hq).2.le.trans (two_zpow_le.mpr (le_max_left _ _)))
      rwa [nearest, ← hself] at hle
    have hlog := two_zpow_le.mp ((floorLog2_spec hpos).1.trans habove)
    have hpower : p = 2 ^ floorLog2 p := by
      refine le_antisymm ?_ (floorLog2_spec hpos).1
      exact habove.trans (two_zpow_le.mpr (by omega))
    obtain ⟨m, hm⟩ := two_zpow_multiple
      (show max (floorLog2 p - 52) (-1074) ≤ floorLog2 p by omega)
    exact nearest_of_multiple (hpower.trans hm)

theorem isMagnitude_nearest {q : Rat} (hq : 0 ≤ q) : IsMagnitude (nearest q) ↔ nearest q < bound :=
  ⟨fun h => h.2.1, fun h => ⟨nearest_nonneg hq, h, nearest_nearest hq⟩⟩

theorem isFinite_ofRat (q : Rat) : (ofRat q).isFinite ↔ nearest q.abs < bound := by
  rw [← isMagnitude_nearest (Rat.abs_nonneg)]
  by_cases h : IsMagnitude (nearest q.abs) <;> simp [ofRat, ofMagnitude, h, isFinite]

theorem isSome_ofInt? (n : Int) : (ofInt? n).isSome ↔ nearest (n : Rat).abs < bound := by
  rw [← isFinite_ofRat]
  simp [ofInt?]

/-- A whole number between zero and the magnitude of a double has a finite double near it. -/
theorem isSome_ofInt?_of_le {n : Int} {m : Rat} (hn : 0 ≤ n) (h : (n : Rat) ≤ m)
    (hm : IsMagnitude m) : (ofInt? n).isSome := by
  have hn' : (0 : Rat) ≤ n := by exact_mod_cast hn
  rw [isSome_ofInt?, Rat.abs_of_nonneg hn']
  calc nearest n ≤ nearest m := nearest_mono hn' h
    _ = m := hm.2.2
    _ < bound := hm.2.1

/-! ### Around a double -/

theorem nearest_of_near {d m : Rat} {n : Int} (hm : m = n * spacing d)
    (h : |d - m| < spacing d / 2) : nearest d = m := by
  have hpos := spacing_pos d
  have hnear : |d / spacing d - n| < 1 / 2 := by
    have hsub : d / spacing d - n = (d - m) / spacing d := by
      rw [hm, sub_div, mul_div_cancel_right₀ _ hpos.ne']
    rw [hsub, abs_div, abs_of_pos hpos, div_lt_iff₀ hpos]
    linarith
  rw [nearest, roundEven_of_near hnear, hm]

theorem two_zpow_split (k : Int) : (2 : Rat) ^ (k + 1) = 2 ^ (k - 52) * 2 ^ 53 := by
  have hexponent : k + 1 = k - 52 + 53 := by omega
  rw [hexponent, zpow_add₀ (by norm_num)]
  norm_num

theorem two_zpow_le_spacing (q : Rat) : (2 : Rat) ^ (floorLog2 q - 52) ≤ spacing q :=
  two_zpow_le.mpr (le_max_left _ _)

/-- The magnitude of a double is at least the smallest step. -/
theorem le_floorLog2 {m : Rat} (hm : IsMagnitude m) (hpos : 0 < m) : -1074 ≤ floorLog2 m := by
  have hstep := spacing_pos m
  have hself : roundEven (m / spacing m) * spacing m = m := hm.2.2
  have hround : 0 < roundEven (m / spacing m) := by
    have hmul : 0 < (roundEven (m / spacing m) : Rat) * spacing m := hself.symm ▸ hpos
    exact_mod_cast (pos_iff_pos_of_mul_pos hmul).mpr hstep
  have hone : (1 : Rat) ≤ roundEven (m / spacing m) := by exact_mod_cast hround
  have hle : (2 : Rat) ^ (-1074 : Int) ≤ m := by
    calc (2 : Rat) ^ (-1074 : Int) ≤ spacing m := two_zpow_le.mpr (le_max_right _ _)
      _ ≤ roundEven (m / spacing m) * spacing m := le_mul_of_one_le_left hstep.le hone
      _ = m := hself
  have hlt := two_zpow_lt.mp (hle.trans_lt (floorLog2_spec hpos).2)
  omega

/-- Two multiples of the spacing at a magnitude are one if they are closer than a spacing. -/
theorem eq_of_close_multiple {m c d : Rat} (hm : IsMagnitude m) (hpos : 0 < m)
    (hclose : |d - m| * 2 ^ 54 < m) {n : Int} (hc : c = n * spacing m)
    (hbetween : |c - m| ≤ |d - m|) : c = m := by
  have hstep := spacing_pos m
  have hself : m = roundEven (m / spacing m) * spacing m := hm.2.2.symm
  generalize roundEven (m / spacing m) = k at hself
  by_contra hne
  have hnk : n ≠ k := by
    rintro rfl
    exact hne (hc.trans hself.symm)
  have hone : (1 : Rat) ≤ |(n - k : Rat)| := by
    exact_mod_cast Int.one_le_abs (sub_ne_zero.mpr hnk)
  have hgap : spacing m ≤ |c - m| := by
    have hsub : c - m = (n - k) * spacing m := by
      rw [sub_mul, ← hc, ← hself]
    rw [hsub, abs_mul, abs_of_pos hstep]
    exact le_mul_of_one_le_left hstep.le hone
  have hlow := two_zpow_le_spacing m
  have hhigh := (floorLog2_spec hpos).2
  have hpower := two_zpow_split (floorLog2 m)
  linarith [two_zpow_pos (floorLog2 m - 52)]

/-- The magnitude of a double is the nearest one to whatever is close to it. -/
theorem nearest_of_close {m d : Rat} (hm : IsMagnitude m) (hpos : 0 < m)
    (hclose : |d - m| * 2 ^ 54 < m) : nearest d = m := by
  have habs := abs_le.mp (le_refl |d - m|)
  have hd : 0 < d := by linarith
  obtain ⟨hk, hk'⟩ := floorLog2_spec hpos
  obtain ⟨hj, hj'⟩ := floorLog2_spec hd
  have hmin := le_floorLog2 hm hpos
  have hmultiple : m = roundEven (m / spacing m) * spacing m := hm.2.2.symm
  -- No power of two lies between the two, but for `m` itself.
  have hbelow : floorLog2 d ≤ floorLog2 m := by
    by_contra hlt
    obtain ⟨n, hn⟩ := two_zpow_multiple
      (show max (floorLog2 m - 52) (-1074) ≤ floorLog2 m + 1 by omega)
    have hpower : (2 : Rat) ^ (floorLog2 m + 1) ≤ d := (two_zpow_le.mpr (by omega)).trans hj
    have hsame := eq_of_close_multiple hm hpos hclose hn
      (by rw [abs_of_pos (by linarith), abs_of_pos (by linarith)]; linarith)
    exact hk'.ne' hsame
  obtain ⟨⟨n, hn⟩, hle⟩ : (∃ n : Int, m = n * spacing d) ∧ m ≤ 2 ^ (floorLog2 d + 1) := by
    rcases hbelow.eq_or_lt with heq | hlt
    · have hspacing : spacing d = spacing m := by rw [spacing, heq, spacing]
      exact ⟨⟨_, hspacing ▸ hmultiple⟩, heq ▸ hk'.le⟩
    obtain ⟨n, hn⟩ := two_zpow_multiple
      (show max (floorLog2 m - 52) (-1074) ≤ floorLog2 m by omega)
    have hpower : d < (2 : Rat) ^ floorLog2 m := hj'.trans_le (two_zpow_le.mpr (by omega))
    have hsame : 2 ^ floorLog2 m = m := eq_of_close_multiple hm hpos hclose hn
      (by rw [abs_of_nonpos (by linarith), abs_of_neg (by linarith)]; linarith)
    have hnext : floorLog2 m ≤ floorLog2 d + 1 := by
      have hdouble : (2 : Rat) ^ (floorLog2 d + 1 + 1) = 2 ^ (floorLog2 d + 1) * 2 :=
        zpow_add_one₀ (by norm_num) _
      have hlt : (2 : Rat) ^ floorLog2 m < 2 ^ (floorLog2 d + 1 + 1) := by linarith
      have := two_zpow_lt.mp hlt
      omega
    obtain ⟨n', hn'⟩ := two_zpow_multiple
      (show max (floorLog2 d - 52) (-1074) ≤ floorLog2 m by omega)
    exact ⟨⟨n', hsame ▸ hn'⟩, hsame ▸ two_zpow_le.mpr hnext⟩
  refine nearest_of_near hn ?_
  have hlow := two_zpow_le_spacing d
  have hpower := two_zpow_split (floorLog2 d)
  linarith

end Binary64

end LayerStack
