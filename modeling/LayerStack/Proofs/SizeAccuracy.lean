import LayerStack.Proofs.PrintedSizes

/-! How much a printed size says.  A text is read back as a number of units, and so as a size.  What
is read grows with what was written, also from one unit to the next, as a number is never rounded
beyond the next unit.  And it differs from what was written by the rounding to two places, and by
those of two doubles. -/

namespace LayerStack

namespace SizeText

open Binary64 (nearest overflow nearest_mono nearest_natCast abs_nearest_sub_le_of_one_le)

/-! ### Reading sizes -/

/-- How much each unit stands for. -/
def unitAmounts : List (String × Nat) := [
  ("", 1), ("B", 1), ("K", 10 ^ 3), ("KB", 10 ^ 3), ("M", 10 ^ 6), ("MB", 10 ^ 6), ("G", 10 ^ 9),
  ("GB", 10 ^ 9), ("T", 10 ^ 12)]

/-- A size as it is told: a number, and how much the unit is that it counts. -/
structure Measure where
  number : Rat
  amount : Nat
  deriving DecidableEq

def Measure.size (measure : Measure) : Rat := measure.number * measure.amount

/-- The size that a text tells. -/
def measure? (text : String) : Option Measure := do
  let reading ← read? text
  let amount ← unitAmounts.lookup reading.unit
  return ⟨reading.number, amount⟩

/-- A size is told to half a hundredth of the unit, but for the roundings of doubles, and below the
first unit exactly. -/
structure Measure.Accurate (measure : Measure) (n : Int) : Prop where
  near : |measure.size - n| ≤ measure.amount / 200 + n / 2 ^ 51
  exact : n < 1000 → measure.size = n

/-! ### One unit -/

/-- Multiples of a unit are told exactly. -/
theorem hundredths_multiple {k amount : Nat} (hamount : 0 < amount) (h : k * amount < 2 ^ 53) :
    hundredths (k * amount : Nat) amount = 100 * k := by
  have hk : k < 2 ^ 53 := (Nat.le_mul_of_pos_right k hamount).trans_lt h
  have hquotient : ((k * amount : Nat) : Rat) / amount = k := by
    rw [Nat.cast_mul, mul_div_cancel_right₀ _ (by exact_mod_cast hamount.ne')]
  have hround : (k : Rat) * 100 = ((100 * k : Int) : Rat) := by
    push_cast
    ring
  rw [hundredths, Int.cast_natCast, nearest_natCast h, hquotient, nearest_natCast hk, hround,
    roundEven_intCast]

/-- What is told of a whole number in a unit that it reaches. -/
def measureIn (n : Int) (amount : Nat) : Measure := ⟨hundredths n amount / 100, amount⟩

theorem measureIn_mono {m n : Int} (hm : 0 ≤ m) (h : m ≤ n) (amount : Nat) :
    (measureIn m amount).size ≤ (measureIn n amount).size := by
  have hround : (hundredths m amount : Rat) ≤ hundredths n amount := by
    exact_mod_cast hundredths_mono hm h amount
  exact mul_le_mul_of_nonneg_right (div_le_div_of_nonneg_right hround (by norm_num))
    (Nat.cast_nonneg amount)

theorem measureIn_multiple {k amount : Nat} (hamount : 0 < amount) (h : k * amount < 2 ^ 53) :
    (measureIn (k * amount : Nat) amount).size = (k * amount : Nat) := by
  rw [measureIn, Measure.size, hundredths_multiple hamount h]
  push_cast
  ring

theorem abs_scaled_sub_le {x y e unit : Rat} (hunit : 0 ≤ unit) (h : |x - y| ≤ e) :
    |x * unit - y * unit| ≤ e * unit := by
  rw [← sub_mul, abs_mul, abs_of_nonneg hunit]
  exact mul_le_mul_of_nonneg_right h hunit

/-- A number in a unit is as near as its three roundings leave it. -/
theorem measureIn_near {n : Int} {amount : Nat} (hamount : 0 < amount) (hexact : amount < 2 ^ 53)
    (h : (amount : Int) ≤ n) :
    |(measureIn n amount).size - n| ≤ amount / 200 + n / 2 ^ 51 := by
  have hpos : (0 : Rat) < amount := by exact_mod_cast hamount
  have hn : (amount : Rat) ≤ n := by exact_mod_cast h
  have hone : (1 : Rat) ≤ n := (by exact_mod_cast hamount : (1 : Rat) ≤ amount).trans hn
  have hdouble : |nearest n - n| ≤ n / 2 ^ 53 := abs_nearest_sub_le_of_one_le hone
  have hreached : (amount : Rat) ≤ nearest n := nearest_natCast hexact ▸ nearest_mono hpos.le hn
  have hquotient : |nearest (nearest n / amount) * amount - nearest n| ≤ nearest n / 2 ^ 53 := by
    have hnear := abs_scaled_sub_le hpos.le
      (abs_nearest_sub_le_of_one_le ((one_le_div hpos).mpr hreached))
    rwa [div_mul_cancel₀ _ hpos.ne', div_right_comm, div_mul_cancel₀ _ hpos.ne'] at hnear
  have hplaces : |(measureIn n amount).size - nearest (nearest n / amount) * amount| ≤
      amount / 200 := by
    have hsize : (measureIn n amount).size = hundredths n amount * (amount / 100) := by
      rw [measureIn, Measure.size]
      ring
    have hscaled : nearest (nearest n / amount) * amount =
        nearest (nearest n / amount) * 100 * (amount / 100) := by ring
    rw [hsize, hscaled]
    calc |(hundredths n amount : Rat) * (amount / 100) -
          nearest (nearest n / amount) * 100 * (amount / 100)|
        ≤ 1 / 2 * (amount / 100) :=
          abs_scaled_sub_le (div_nonneg hpos.le (by norm_num)) (abs_roundEven_sub_le _)
      _ = amount / 200 := by ring
  have hbelow := (abs_le.mp hdouble).2
  have hfirst := abs_sub_le (measureIn n amount).size (nearest (nearest n / amount) * amount) n
  have hsecond := abs_sub_le (nearest (nearest n / amount) * amount) (nearest n) (n : Rat)
  linarith

/-! ### From one unit to the next -/

/-- What is told of a whole number. -/
def measureOf (scales : List Scale) (n : Int) : Measure :=
  match reached scales n with
  | some scale => measureIn n scale.amount
  | none => ⟨n, 1⟩

@[simp] theorem size_measureOf_nil (n : Int) : (measureOf [] n).size = n := by
  simp [measureOf, reached, Measure.size]

theorem measureOf_cons (scale : Scale) (rest : List Scale) (n : Int) :
    measureOf (scale :: rest) n =
      if (scale.amount : Int) ≤ n then measureIn n scale.amount else measureOf rest n := by
  simp only [measureOf, reached, List.find?_cons]
  by_cases h : (scale.amount : Int) ≤ n <;> simp [h]

/-- Units of which each is a thousand times the one after it.  All are doubles, so that none is
rounded itself. -/
structure Steps (scales : List Scale) : Prop where
  thousand_le : ∀ scale ∈ scales, 1000 ≤ scale.amount
  exact : ∀ scale ∈ scales, scale.amount < 2 ^ 53
  chain : scales.IsChain fun a b => a.amount = 1000 * b.amount

namespace Steps

variable {scale : Scale} {rest : List Scale}

theorem tail (h : Steps (scale :: rest)) : Steps rest where
  thousand_le := (List.forall_mem_cons.mp h.thousand_le).2
  exact := (List.forall_mem_cons.mp h.exact).2
  chain := h.chain.tail

theorem head_positive (h : Steps (scale :: rest)) : 0 < scale.amount :=
  (by decide : 0 < 1000).trans_le (h.thousand_le scale List.mem_cons_self)

theorem head_exact (h : Steps (scale :: rest)) : scale.amount < 2 ^ 53 :=
  h.exact scale List.mem_cons_self

end Steps

/-- A number below a unit is told as that unit at most. -/
theorem size_measureOf_le {scale : Scale} {rest : List Scale} (h : Steps (scale :: rest)) {n : Int}
    (hn : 0 ≤ n) (hlt : n < scale.amount) : (measureOf rest n).size ≤ scale.amount := by
  induction rest generalizing scale with
  | nil =>
    rw [size_measureOf_nil]
    exact_mod_cast hlt.le
  | cons next more ih =>
    have hnext : scale.amount = 1000 * next.amount := (List.isChain_cons_cons.mp h.chain).1
    rw [measureOf_cons]
    split
    · calc (measureIn n next.amount).size
          ≤ (measureIn (1000 * next.amount : Nat) next.amount).size :=
            measureIn_mono hn (hnext ▸ hlt.le) _
        _ = scale.amount := by
          rw [measureIn_multiple h.tail.head_positive (hnext ▸ h.head_exact), hnext]
    next hbelow =>
      calc (measureOf more n).size ≤ next.amount := ih h.tail (not_le.mp hbelow)
        _ ≤ scale.amount := by exact_mod_cast (by omega : next.amount ≤ scale.amount)

/-- A number that reaches a unit is told as that unit at least. -/
theorem le_size_measureIn {amount : Nat} (hamount : 0 < amount) (hexact : amount < 2 ^ 53) {n : Int}
    (h : (amount : Int) ≤ n) : amount ≤ (measureIn n amount).size := by
  have hfirst := measureIn_multiple (k := 1) hamount (by rwa [one_mul])
  rw [one_mul] at hfirst
  calc (amount : Rat) = (measureIn amount amount).size := hfirst.symm
    _ ≤ (measureIn n amount).size := measureIn_mono (Int.natCast_nonneg _) h _

theorem size_measureOf_mono {scales : List Scale} (h : Steps scales) {m n : Int} (hm : 0 ≤ m)
    (hle : m ≤ n) : (measureOf scales m).size ≤ (measureOf scales n).size := by
  induction scales with
  | nil =>
    rw [size_measureOf_nil, size_measureOf_nil]
    exact_mod_cast hle
  | cons scale rest ih =>
    rw [measureOf_cons, measureOf_cons]
    by_cases hsmall : (scale.amount : Int) ≤ m
    · rw [if_pos hsmall, if_pos (hsmall.trans hle)]
      exact measureIn_mono hm hle _
    by_cases hlarge : (scale.amount : Int) ≤ n
    -- The smaller number is told in a smaller unit, and as the larger unit at most.
    · rw [if_neg hsmall, if_pos hlarge]
      exact (size_measureOf_le h hm (not_le.mp hsmall)).trans
        (le_size_measureIn h.head_positive h.head_exact hlarge)
    · rw [if_neg hsmall, if_neg hlarge]
      exact ih h.tail

theorem measureOf_accurate {scales : List Scale} (h : Steps scales) {n : Int} (hn : 0 ≤ n) :
    (measureOf scales n).Accurate n := by
  induction scales with
  | nil =>
    have hnonneg : (0 : Rat) ≤ n := by exact_mod_cast hn
    refine ⟨?_, fun _ => size_measureOf_nil n⟩
    rw [size_measureOf_nil, sub_self, abs_zero]
    exact add_nonneg (div_nonneg (Nat.cast_nonneg _) (by norm_num))
      (div_nonneg hnonneg (by norm_num))
  | cons scale rest ih =>
    rw [measureOf_cons]
    split
    next hreached =>
      refine ⟨measureIn_near h.head_positive h.head_exact hreached, fun hsmall => ?_⟩
      have hthousand := h.thousand_le scale List.mem_cons_self
      omega
    · exact ih h.tail

/-! ### Texts -/

/-- The units of a ladder are doubles, and their amounts can be told from their marks. -/
structure Measured (scales : List Scale) (bare : String) : Prop where
  thousand_le : ∀ scale ∈ scales, 1000 ≤ scale.amount
  exact : ∀ scale ∈ scales, scale.amount < 2 ^ 53
  amount : ∀ scale ∈ scales, unitAmounts.lookup (unitOf scale.mark) = some scale.amount
  one : unitAmounts.lookup (unitOf bare) = some 1

theorem measured_count : Measured countScales "" where
  thousand_le := by decide
  exact := by decide
  amount := by decide
  one := by decide

theorem measured_bytes : Measured byteScales " B" where
  thousand_le := by decide
  exact := by decide
  amount := by decide
  one := by decide

section Ladders

variable {first : Scale} {rest : List Scale} {bare : String}

theorem Ladder.steps (h : Ladder first rest bare) (hmeasured : Measured (first :: rest) bare) :
    Steps (first :: rest) where
  thousand_le := hmeasured.thousand_le
  exact := hmeasured.exact
  chain := h.chain

theorem Ladder.measure?_scaled (h : Ladder first rest bare)
    (hmeasured : Measured (first :: rest) bare) {n : Int} (hn : 0 ≤ n)
    (hfinite : (Binary64.ofInt? n).isSome) :
    ∃ text, scaled (first :: rest) bare (.int n) = .ok text ∧
      measure? text = some (measureOf (first :: rest) n) := by
  obtain ⟨text, htext, hread⟩ := read?_scaled h.readable h.unmarked hn hfinite
  refine ⟨text, htext, ?_⟩
  rw [measure?, hread, reading, measureOf]
  cases hreached : reached (first :: rest) n with
  | none => simp [hmeasured.one]
  | some scale =>
    have hscale : scale ∈ first :: rest := List.mem_of_find?_eq_some hreached
    simp [hmeasured.amount scale hscale, measureIn]

theorem Ladder.ordered_accurate (h : Ladder first rest bare)
    (hmeasured : Measured (first :: rest) bare) {m n : Int} (hm : 0 ≤ m) (hle : m ≤ n)
    (hfinite : (Binary64.ofInt? n).isSome) :
    ∃ small large a b, scaled (first :: rest) bare (.int m) = .ok small ∧
      scaled (first :: rest) bare (.int n) = .ok large ∧
      measure? small = some a ∧ measure? large = some b ∧
      a.size ≤ b.size ∧ a.Accurate m ∧ b.Accurate n := by
  have hn := hm.trans hle
  have hsteps := h.steps hmeasured
  obtain ⟨small, hsmall, ha⟩ :=
    h.measure?_scaled hmeasured hm (Binary64.isSome_ofInt?_mono hm hle hfinite)
  obtain ⟨large, hlarge, hb⟩ := h.measure?_scaled hmeasured hn hfinite
  exact ⟨small, large, _, _, hsmall, hlarge, ha, hb, size_measureOf_mono hsteps hm hle,
    measureOf_accurate hsteps hm, measureOf_accurate hsteps hn⟩

end Ladders

/-- The texts of two counts, or of two numbers of bytes, tell sizes in the order of the numbers, and
each of them is told accurately. -/
theorem sizes_ordered_accurate {write : Number → Except Fault String}
    (hwrite : write ∈ [count, bytes]) {m n : Int} (hm : 0 ≤ m) (h : m ≤ n)
    (hfinite : (Binary64.ofInt? n).isSome) :
    ∃ small large a b, write (.int m) = .ok small ∧ write (.int n) = .ok large ∧
      measure? small = some a ∧ measure? large = some b ∧
      a.size ≤ b.size ∧ a.Accurate m ∧ b.Accurate n := by
  rcases List.mem_pair.mp hwrite with rfl | rfl
  · exact ladder_count.ordered_accurate measured_count hm h hfinite
  · exact ladder_bytes.ordered_accurate measured_bytes hm h hfinite

/-- From a size that is written as a full next unit up to the largest one that has a double. -/
theorem sizes_ordered_accurate_largest :
    bytes ∈ [count, bytes] ∧ (Binary64.ofInt? (overflow - 1)).isSome ∧
      ∃ small large a b, bytes (.int 999999999) = .ok small ∧
        bytes (.int (overflow - 1)) = .ok large ∧
        measure? small = some a ∧ measure? large = some b ∧
        a.size ≤ b.size ∧ a.Accurate 999999999 ∧ b.Accurate (overflow - 1) := by
  have hwrite : bytes ∈ [count, bytes] := List.mem_cons_of_mem _ List.mem_cons_self
  have hle : (999999999 : Int) ≤ overflow - 1 := by decide +kernel
  have hfinite : (Binary64.ofInt? (overflow - 1)).isSome := by
    rw [Binary64.isSome_ofInt?_iff, abs_of_nonneg (by omega)]
    omega
  exact ⟨hwrite, hfinite, sizes_ordered_accurate hwrite (by decide) hle hfinite⟩

end SizeText

end LayerStack
