import LayerStack.Proofs.Calculation
import LayerStack.Proofs.Doubles
import LayerStack.Proofs.Numerals

/-! Texts of sizes, read back as a number and a unit.  The number is what three roundings leave of
the size in its unit, and each of them keeps order.  As the unit is chosen before the number is
rounded, a number just below the next unit may be rounded up to it, and none is rounded further. -/

namespace LayerStack

namespace Decimal

theorem length_padZeros {n : Nat} (h : n < 100) : (padZeros 2 (Nat.toDigits 10 n)).length = 2 := by
  have hlength : (Nat.toDigits 10 n).length ≤ 2 :=
    (Nat.length_toDigits_le_iff (by decide) (by decide)).mpr h
  rw [padZeros, List.length_append, List.length_replicate]
  omega

/-- A numeral with two places stands for as many hundredths as it was made from. -/
theorem scaled?_hundredthsText (n : Nat) :
    ∃ s, scaled? (hundredthsText n).toList = some s ∧ s.toRat = n / 100 := by
  have hlength := length_padZeros (Nat.mod_lt n (by decide : 0 < 100))
  have hpadded : ∀ c ∈ padZeros 2 (Nat.toDigits 10 (n % 100)), c.isDigit = true :=
    List.forall_mem_append.mpr ⟨isDigit_of_mem_zeros _, fun c hc => isDigit_of_mem_toDigits c hc⟩
  have hwhole : ∀ c ∈ Nat.toDigits 10 (n / 100), c.isDigit = true := isDigit_of_mem_toDigits
  have hread := scaled?_point [] Nat.toDigits_ne_nil hwhole hpadded (by simp)
  have htext : (hundredthsText n).toList =
      Nat.toDigits 10 (n / 100) ++ '.' :: (padZeros 2 (Nat.toDigits 10 (n % 100)) ++ []) := by
    simp [hundredthsText, natText]
  have hplaces : Nat.ofDigitChars 10 (padZeros 2 (Nat.toDigits 10 (n % 100))) 0 = n % 100 := by
    rw [padZeros, Nat.ofDigitChars_append, Nat.ofDigitChars_replicate_zero, Nat.mul_zero,
      Nat.ofDigitChars_ten_toDigits]
  have hdigits : Nat.ofDigitChars 10
      (Nat.toDigits 10 (n / 100) ++ padZeros 2 (Nat.toDigits 10 (n % 100))) 0 = n := by
    rw [Nat.ofDigitChars_append, Nat.ofDigitChars_eq_ofDigitChars_zero, hlength, hplaces,
      Nat.ofDigitChars_ten_toDigits]
    omega
  rw [← htext, hlength, hdigits] at hread
  refine ⟨_, hread, ?_⟩
  norm_num [Scaled.toRat]
  ring

end Decimal

namespace SizeText

open Binary64 (nearest bound overflow)

/-! ### Reading -/

/-- What a text of a size says. -/
structure Reading where
  number : Rat
  unit : String
  deriving DecidableEq

def isNumeral (c : Char) : Bool := c.isDigit || c == '.'

/-- What follows a number, without the blank before it. -/
def unitOf (mark : String) : String := String.ofList (mark.toList.dropWhile (· == ' '))

/-- A text taken apart into a numeral and the unit after it. -/
def read? (text : String) : Option Reading :=
  (Decimal.scaled? (text.toList.takeWhile isNumeral)).map fun s =>
    ⟨s.toRat, unitOf (String.ofList (text.toList.dropWhile isNumeral))⟩

/-- What is written after a number can be told from it. -/
def IsMark (mark : String) : Prop := mark.toList.head?.any isNumeral = false

instance (mark : String) : Decidable (IsMark mark) :=
  inferInstanceAs (Decidable (mark.toList.head?.any isNumeral = false))

theorem read?_append {numeral mark : String} (hnumeral : ∀ c ∈ numeral.toList, isNumeral c = true)
    (hmark : IsMark mark) {s : Decimal.Scaled} (h : Decimal.scaled? numeral.toList = some s) :
    read? (numeral ++ mark) = some ⟨s.toRat, unitOf mark⟩ := by
  have hstop : ∀ c ∈ mark.toList.head?, isNumeral c = false := by
    intro c hc
    simpa [IsMark, Option.mem_def.mp hc] using hmark
  obtain ⟨htake, hdrop⟩ := takeWhile_append_eq hnumeral hstop
  rw [read?, String.toList_append, htake, hdrop, h, String.ofList_toList]
  rfl

theorem read?_hundredthsText (n : Nat) {mark : String} (hmark : IsMark mark) :
    read? (Decimal.hundredthsText n ++ mark) = some ⟨n / 100, unitOf mark⟩ := by
  obtain ⟨s, hs, hvalue⟩ := Decimal.scaled?_hundredthsText n
  rw [← hvalue]
  refine read?_append ?_ hmark hs
  have hdigit : ∀ {c : Char}, c.isDigit = true → isNumeral c = true := by
    intro c hc
    simp [isNumeral, hc]
  intro c hc
  simp only [Decimal.hundredthsText, Decimal.natText, String.toList_append, String.toList_ofList,
    List.mem_append] at hc
  rcases hc with (hc | hc) | hc
  · exact hdigit (Decimal.isDigit_of_mem_toDigits c hc)
  · obtain rfl : c = '.' := by simpa using hc
    rfl
  · rcases List.mem_append.mp hc with hc | hc
    · exact hdigit (Decimal.isDigit_of_mem_zeros _ c hc)
    · exact hdigit (Decimal.isDigit_of_mem_toDigits c hc)

theorem read?_natText (n : Nat) {mark : String} (hmark : IsMark mark) :
    read? (Decimal.natText n ++ mark) = some ⟨n, unitOf mark⟩ := by
  have htext : (Decimal.natText n).toList = Nat.toDigits 10 n := String.toList_ofList
  have hdigits : ∀ c ∈ Nat.toDigits 10 n, c.isDigit = true := Decimal.isDigit_of_mem_toDigits
  have hread : Decimal.scaled? (Decimal.natText n).toList = some ⟨n, 0⟩ := by
    have hend : ∀ c ∈ ([] : List Char).head?, c.isDigit = false := by simp
    obtain ⟨htake, hdrop⟩ := takeWhile_append_eq hdigits hend
    rw [List.append_nil] at htake hdrop
    simp [Decimal.scaled?, htext, htake, hdrop, Nat.toDigits_ne_nil, Decimal.exponent?]
  have hvalue : Decimal.Scaled.toRat ⟨n, 0⟩ = n := by simp [Decimal.Scaled.toRat]
  rw [← hvalue]
  refine read?_append ?_ hmark hread
  rw [htext]
  intro c hc
  simp [isNumeral, hdigits c hc]

/-! ### Counts and bytes -/

/-- The number that is written for a whole number in units of an amount, in hundredths: one rounding
for the double near it, one for the quotient, and one for the two places. -/
def hundredths (n : Int) (amount : Nat) : Int := roundEven (nearest (nearest n / amount) * 100)

theorem hundredths_mono {m n : Int} (hm : 0 ≤ m) (h : m ≤ n) (amount : Nat) :
    hundredths m amount ≤ hundredths n amount := by
  have hdouble : nearest (m : Rat) ≤ nearest n :=
    Binary64.nearest_mono (by exact_mod_cast hm) (by exact_mod_cast h)
  have hzero : 0 ≤ nearest (m : Rat) / amount :=
    div_nonneg (Binary64.nearest_nonneg (by exact_mod_cast hm)) (Nat.cast_nonneg amount)
  have hquotient := Binary64.nearest_mono hzero
    (div_le_div_of_nonneg_right hdouble (Nat.cast_nonneg amount))
  exact roundEven_mono (mul_le_mul_of_nonneg_right hquotient (by norm_num))

theorem hundredths_nonneg {n : Int} (h : 0 ≤ n) (amount : Nat) : 0 ≤ hundredths n amount := by
  have hzero : hundredths 0 amount = 0 := by simp [hundredths]
  exact hzero ▸ hundredths_mono le_rfl h amount

theorem toNat_cast {n : Int} (h : 0 ≤ n) : ((n.toNat : Nat) : Rat) = n := by
  exact_mod_cast Int.toNat_of_nonneg h

theorem fixedText_finite {m : Rat} (hm : Binary64.IsMagnitude m) :
    Decimal.fixedText (.finite false m hm) =
      Decimal.hundredthsText (roundEven (m * 100)).toNat := by
  simp [Decimal.fixedText]

/-- A unit that can be read back. -/
structure Scale.Readable (scale : Scale) : Prop where
  amount : 0 < scale.amount
  mark : IsMark scale.mark

instance (scale : Scale) : Decidable scale.Readable :=
  decidable_of_iff (0 < scale.amount ∧ IsMark scale.mark)
    ⟨fun h => ⟨h.1, h.2⟩, fun h => ⟨h.amount, h.mark⟩⟩

/-- The first unit that a whole number reaches. -/
def reached (scales : List Scale) (n : Int) : Option Scale :=
  scales.find? fun scale => decide ((scale.amount : Int) ≤ n)

/-- What is read from the text of a whole number. -/
def reading (scales : List Scale) (bare : String) (n : Int) : Reading :=
  match reached scales n with
  | some scale => ⟨hundredths n scale.amount / 100, unitOf scale.mark⟩
  | none => ⟨n, unitOf bare⟩

theorem read?_scaled {scales : List Scale} (hscales : ∀ scale ∈ scales, scale.Readable)
    {bare : String} (hbare : IsMark bare) {n : Int} (hn : 0 ≤ n)
    (hfinite : (Binary64.ofInt? n).isSome) :
    ∃ text, scaled scales bare (.int n) = .ok text ∧
      read? text = some (reading scales bare n) := by
  have hfind : scales.find? (fun scale => (Number.int n).atLeast scale.amount) =
      reached scales n := by
    congr 1
    funext scale
    rw [Bool.eq_iff_iff, atLeast_int, decide_eq_true_eq]
  rw [scaled, hfind, reading]
  cases hreached : reached scales n with
  | none =>
    have htext : (Number.int n).text = Decimal.natText n.toNat := by
      rw [Number.text, Decimal.intText, if_neg (not_lt.mpr hn)]
      congr 1
      omega
    refine ⟨_, rfl, ?_⟩
    rw [htext, read?_natText _ hbare, toNat_cast hn]
  | some scale =>
    have hscale := hscales scale (List.mem_of_find?_eq_some hreached)
    obtain ⟨hm, hreal⟩ := Binary64.ofInt?_finite hn hfinite
    obtain ⟨hq, hquotient⟩ := Binary64.divNat_finite hm hscale.amount
    have hvalue := toNat_cast (hundredths_nonneg hn scale.amount)
    refine ⟨_, by simp only [toReal, Number.toBinary64?, hreal, Except.map]; rfl, ?_⟩
    rw [hquotient, fixedText_finite, read?_hundredthsText _ hscale.mark]
    exact congrArg some (congrArg (Reading.mk · _) (congrArg (· / 100) hvalue))

/-! ### Below the next unit -/

theorem le_of_reached {scales : List Scale} {scale : Scale} {n : Int}
    (h : reached scales n = some scale) : (scale.amount : Int) ≤ n := by
  have hle := List.find?_some h
  simpa using hle

/-- A unit a thousand times the one after it is not reached by what is written in the latter. -/
theorem lt_of_reached {first scale : Scale} {rest : List Scale} {n : Int}
    (hchain : (first :: rest).IsChain fun a b => a.amount = 1000 * b.amount)
    (h : reached (first :: rest) n = some scale) :
    scale = first ∨ scale ∈ rest ∧ n < 1000 * scale.amount := by
  induction rest generalizing first with
  | nil =>
    have hmem := List.mem_of_find?_eq_some h
    exact .inl (List.mem_singleton.mp hmem)
  | cons next more ih =>
    obtain ⟨hnext, hmore⟩ := List.isChain_cons_cons.mp hchain
    rw [reached, List.find?_cons] at h
    split at h
    · exact .inl (Option.some.inj h).symm
    next hfirst =>
      have hlt : n < first.amount := not_le.mp (of_decide_eq_false hfirst)
      rcases ih hmore h with rfl | ⟨hmem, hlt⟩
      · exact .inr ⟨List.mem_cons_self, by rw [hnext] at hlt; exact_mod_cast hlt⟩
      · exact .inr ⟨List.mem_cons_of_mem _ hmem, hlt⟩

/-- The amounts of the units that have a next one. -/
def smallAmounts : List Nat := [10 ^ 3, 10 ^ 6, 10 ^ 9]

/-- A number in a unit is rounded up to the next unit from five thousandths below it on. -/
theorem hundredths_bounds {amount : Nat} (h : amount ∈ smallAmounts) {n : Int}
    (hlow : (amount : Int) ≤ n) (hhigh : n < 1000 * amount) :
    100 ≤ hundredths n amount ∧ hundredths n amount ≤ 100000 ∧
      (hundredths n amount = 100000 ↔ 999995 * (amount : Int) ≤ 1000 * n) := by
  -- What is written at the two ends of the unit, and on both sides of the step to the next one.
  have hends : ∀ amount ∈ smallAmounts, amount % 1000 = 0 ∧
      hundredths amount amount = 100 ∧ hundredths (1000 * amount) amount = 100000 ∧
      hundredths (999995 * (amount / 1000 : Nat)) amount = 100000 ∧
      hundredths (999995 * (amount / 1000 : Nat) - 1) amount = 99999 := by decide +kernel
  obtain ⟨hwhole, hfirst, hlast, hstep, hbefore⟩ := hends amount h
  have hmin := hundredths_mono (Int.natCast_nonneg amount) hlow amount
  have hmax := hundredths_mono (show 0 ≤ n by omega) hhigh.le amount
  rw [hfirst] at hmin
  rw [hlast] at hmax
  refine ⟨hmin, hmax, ?_⟩
  constructor
  · intro hfull
    by_contra hlt
    have hbelow : n ≤ 999995 * (amount / 1000 : Nat) - 1 := by omega
    have hle := hundredths_mono (show 0 ≤ n by omega) hbelow amount
    omega
  · intro hle
    have habove : 999995 * ((amount / 1000 : Nat) : Int) ≤ n := by omega
    have hge := hundredths_mono (by omega) habove amount
    omega

/-- A number from one up to a thousand, which it is only for a size that lies at most five
thousandths of the unit below the next unit. -/
structure Reading.Within (reading : Reading) (amount : Nat) (n : Int) : Prop where
  one_le : 1 ≤ reading.number
  le_thousand : reading.number ≤ 1000
  eq_thousand_iff : reading.number = 1000 ↔ 999995 * (amount : Int) ≤ 1000 * n

theorem within_of_reached {scale : Scale} (h : scale.amount ∈ smallAmounts) {n : Int}
    (hlow : (scale.amount : Int) ≤ n) (hhigh : n < 1000 * scale.amount) :
    Reading.Within ⟨hundredths n scale.amount / 100, unitOf scale.mark⟩ scale.amount n := by
  obtain ⟨hmin, hmax, hfull⟩ := hundredths_bounds h hlow hhigh
  have hmin' : (100 : Rat) ≤ hundredths n scale.amount := by exact_mod_cast hmin
  have hmax' : (hundredths n scale.amount : Rat) ≤ 100000 := by exact_mod_cast hmax
  refine ⟨?_, ?_, ?_⟩
  · show (1 : Rat) ≤ hundredths n scale.amount / 100
    linarith
  · show (hundredths n scale.amount / 100 : Rat) ≤ 1000
    linarith
  · show (hundredths n scale.amount / 100 : Rat) = 1000 ↔ _
    rw [← hfull, div_eq_iff (by norm_num)]
    norm_num
    exact_mod_cast Iff.rfl

/-- Units of which each is a thousand times the one after it, and all can be told apart. -/
structure Ladder (first : Scale) (rest : List Scale) (bare : String) : Prop where
  readable : ∀ scale ∈ first :: rest, scale.Readable
  unmarked : IsMark bare
  chain : (first :: rest).IsChain fun a b => a.amount = 1000 * b.amount
  small : ∀ scale ∈ rest, scale.amount ∈ smallAmounts
  units : (unitOf bare :: (first :: rest).map fun scale => unitOf scale.mark).Nodup

theorem ladder_count :
    Ladder ⟨10 ^ 12, "T"⟩ [⟨10 ^ 9, "G"⟩, ⟨10 ^ 6, "M"⟩, ⟨10 ^ 3, "K"⟩] "" where
  readable := by decide
  unmarked := by decide
  chain := by simp
  small := by decide
  units := by decide

theorem ladder_bytes : Ladder ⟨10 ^ 9, " GB"⟩ [⟨10 ^ 6, " MB"⟩, ⟨10 ^ 3, " KB"⟩] " B" where
  readable := by decide
  unmarked := by decide
  chain := by simp
  small := by decide
  units := by decide

theorem Ladder.within {first : Scale} {rest : List Scale} {bare : String}
    (h : Ladder first rest bare) {n : Int} (hn : 0 ≤ n) (hfinite : (Binary64.ofInt? n).isSome) :
    ∃ text reading, scaled (first :: rest) bare (.int n) = .ok text ∧
      read? text = some reading ∧
      ∀ scale ∈ rest, reading.unit = unitOf scale.mark → reading.Within scale.amount n := by
  obtain ⟨text, htext, hread⟩ := read?_scaled h.readable h.unmarked hn hfinite
  obtain ⟨hbare, hunits⟩ := List.nodup_cons.mp h.units
  refine ⟨text, _, htext, hread, fun scale hscale hunit => ?_⟩
  have hmem : scale ∈ first :: rest := List.mem_cons_of_mem _ hscale
  rw [reading] at hunit ⊢
  cases hreached : reached (first :: rest) n with
  | none =>
    simp only [hreached] at hunit
    exact absurd (List.mem_map_of_mem hmem) (hunit ▸ hbare)
  | some other =>
    simp only [hreached] at hunit ⊢
    obtain rfl : other = scale :=
      List.inj_on_of_nodup_map hunits (List.mem_of_find?_eq_some hreached) hmem hunit
    have hother : other ≠ first := by
      rintro rfl
      exact (List.nodup_cons.mp hunits).1 (List.mem_map_of_mem hscale)
    rcases lt_of_reached h.chain hreached with heq | ⟨-, hhigh⟩
    · exact absurd heq hother
    · exact within_of_reached (h.small other hscale) (le_of_reached hreached) hhigh

/-! ### Weights -/

/-- The double that tells the size of weights. -/
def weight (parameters : Int) : Rat :=
  nearest ((parameters * Precision.fp32.bytes : Int) / (1024 * 1024 : Nat))

theorem weight_mono {m n : Int} (hm : 0 ≤ m) (h : m ≤ n) : weight m ≤ weight n := by
  have hbytes : m * Precision.fp32.bytes ≤ n * Precision.fp32.bytes :=
    mul_le_mul_of_nonneg_right h (Int.natCast_nonneg _)
  have hnonneg : 0 ≤ m * Precision.fp32.bytes := mul_nonneg hm (Int.natCast_nonneg _)
  refine Binary64.nearest_mono (div_nonneg (by exact_mod_cast hnonneg) (Nat.cast_nonneg _)) ?_
  exact div_le_div_of_nonneg_right (by exact_mod_cast hbytes) (Nat.cast_nonneg _)

theorem weight_nonneg {parameters : Int} (h : 0 ≤ parameters) : 0 ≤ weight parameters := by
  have hzero : weight 0 = 0 := by simp [weight]
  exact hzero ▸ weight_mono le_rfl h

theorem weightMegabytes_eq {parameters : Int} (hnonneg : 0 ≤ parameters)
    (h : parameters < overflow * 2 ^ 18) :
    ∃ hm, weightMegabytes parameters = .ok (.finite false (weight parameters) hm) := by
  have hbytes : 0 ≤ parameters * Precision.fp32.bytes := mul_nonneg hnonneg (Int.natCast_nonneg _)
  have hsome : (Binary64.quotient? (parameters * Precision.fp32.bytes) (1024 * 1024)).isSome := by
    rw [Binary64.isSome_quotient?_iff (by decide), abs_of_nonneg hbytes]
    simp only [Precision.bytes]
    omega
  obtain ⟨hm, hquotient⟩ := Binary64.quotient?_finite hbytes hsome
  exact ⟨hm, by rw [weightMegabytes, hquotient]; rfl⟩

/-- The number that is written for weights of less than one unit, in hundredths. -/
def smallHundredths (parameters : Int) : Int :=
  roundEven (nearest (weight parameters * 1024) * 100)

theorem smallHundredths_mono {m n : Int} (hm : 0 ≤ m) (h : m ≤ n) :
    smallHundredths m ≤ smallHundredths n := by
  have hscaled : weight m * 1024 ≤ weight n * 1024 :=
    mul_le_mul_of_nonneg_right (weight_mono hm h) (by norm_num)
  have hdouble := Binary64.nearest_mono (mul_nonneg (weight_nonneg hm) (by norm_num)) hscaled
  exact roundEven_mono (mul_le_mul_of_nonneg_right hdouble (by norm_num))

theorem below_one {m : Rat} (hm : Binary64.IsMagnitude m) :
    (Number.real (.finite false m hm)).below 1 = decide (m < 1) := by
  rw [Bool.eq_iff_iff]
  simp [Number.below, Binary64.below, Binary64.atLeast]

/-- Weights are written in the smaller unit if there are fewer parameters than make up the larger
one. -/
theorem weight_lt_one_iff {parameters : Int} (h : 0 ≤ parameters) :
    weight parameters < 1 ↔ parameters ≤ 2 ^ 18 - 1 := by
  have hends : weight (2 ^ 18 - 1) < 1 ∧ weight (2 ^ 18) = 1 := by decide +kernel
  constructor
  · intro hlt
    by_contra hge
    have hmono := weight_mono (by norm_num) (show (2 : Int) ^ 18 ≤ parameters by omega)
    rw [hends.2] at hmono
    linarith
  · intro hle
    exact (weight_mono h hle).trans_lt hends.1

/-- Weights are written as less than a whole larger unit, but for one parameter less than make it
up. -/
theorem smallHundredths_bounds {parameters : Int} (h : 0 ≤ parameters)
    (hle : parameters ≤ 2 ^ 18 - 1) :
    smallHundredths parameters ≤ 102400 ∧
      (smallHundredths parameters = 102400 ↔ parameters = 2 ^ 18 - 1) := by
  have hends : smallHundredths (2 ^ 18 - 1) = 102400 ∧ smallHundredths (2 ^ 18 - 2) = 102399 := by
    decide +kernel
  have hmax := smallHundredths_mono h hle
  refine ⟨hends.1 ▸ hmax, ?_⟩
  constructor
  · intro hfull
    by_contra hne
    have hbelow := smallHundredths_mono h (show parameters ≤ 2 ^ 18 - 2 by omega)
    omega
  · rintro rfl
    exact hends.1

theorem read?_megabytes {parameters : Int} (hnonneg : 0 ≤ parameters)
    (h : parameters < overflow * 2 ^ 18) :
    ∃ size text reading, weightMegabytes parameters = .ok size ∧
      megabytes (.real size) = .ok text ∧ read? text = some reading ∧
      (reading.unit = "KB" → reading.number ≤ 1024 ∧
        (reading.number = 1024 ↔ parameters = 2 ^ 18 - 1)) := by
  obtain ⟨hm, hsize⟩ := weightMegabytes_eq hnonneg h
  by_cases hlt : weight parameters < 1
  · have hproduct : nearest (weight parameters * (1024 : Nat)) < bound := by
      have hlargest : nearest (1024 : Nat) < bound := by decide +kernel
      refine (Binary64.nearest_mono (mul_nonneg hm.1 (Nat.cast_nonneg _)) ?_).trans_lt hlargest
      exact mul_le_of_le_one_left (Nat.cast_nonneg _) hlt.le
    obtain ⟨hq, hscaled⟩ :=
      Binary64.ofMagnitude_finite (mul_nonneg hm.1 (Nat.cast_nonneg 1024)) hproduct false
    obtain ⟨hmax, hfull⟩ := smallHundredths_bounds hnonneg ((weight_lt_one_iff hnonneg).mp hlt)
    have hpositive : 0 ≤ smallHundredths parameters := by
      have hzero : smallHundredths 0 = 0 := by decide +kernel
      exact hzero ▸ smallHundredths_mono le_rfl hnonneg
    have hvalue := toNat_cast hpositive
    have htext : megabytes (.real (.finite false (weight parameters) hm)) =
        .ok (Decimal.hundredthsText (smallHundredths parameters).toNat ++ " KB") := by
      rw [megabytes, below_one, if_pos (decide_eq_true hlt), Number.mulNat, Binary64.mulNat,
        hscaled, toReal, Number.toBinary64?, Except.map, fixedText_finite, smallHundredths]
      rfl
    have hread := read?_hundredthsText (smallHundredths parameters).toNat
      (by decide : IsMark " KB")
    rw [hvalue] at hread
    refine ⟨_, _, _, hsize, htext, hread, fun _ => ⟨?_, ?_⟩⟩
    · have hmax : (smallHundredths parameters : Rat) ≤ 102400 := by exact_mod_cast hmax
      show (smallHundredths parameters / 100 : Rat) ≤ 1024
      linarith
    · show (smallHundredths parameters / 100 : Rat) = 1024 ↔ _
      rw [← hfull, div_eq_iff (by norm_num)]
      norm_num
      exact_mod_cast Iff.rfl
  · have htext : megabytes (.real (.finite false (weight parameters) hm)) =
        .ok (Decimal.hundredthsText (roundEven (weight parameters * 100)).toNat ++ " MB") := by
      rw [megabytes, below_one, if_neg (by simpa using hlt), toReal, Number.toBinary64?, Except.map,
        fixedText_finite]
    have hunit : unitOf " MB" ≠ "KB" := by decide
    exact ⟨_, _, _, hsize, htext, read?_hundredthsText _ (by decide), fun h => absurd h hunit⟩

/-- The numbers that are written for sizes stay below the next unit, but for sizes so little below
it that two places do not show the difference.  Weights that no double can tell the size of are
refused before anything is written. -/
theorem sizes_below_next_unit :
    (∀ n : Int, 0 ≤ n → (Binary64.ofInt? n).isSome → ∃ text reading,
      count (.int n) = .ok text ∧ read? text = some reading ∧
      ∀ entry ∈ [("G", 10 ^ 9), ("M", 10 ^ 6), ("K", 10 ^ 3)],
        reading.unit = entry.1 → reading.Within entry.2 n) ∧
    (∀ n : Int, 0 ≤ n → (Binary64.ofInt? n).isSome → ∃ text reading,
      bytes (.int n) = .ok text ∧ read? text = some reading ∧
      ∀ entry ∈ [("MB", 10 ^ 6), ("KB", 10 ^ 3)],
        reading.unit = entry.1 → reading.Within entry.2 n) ∧
    (∀ parameters : Int, 0 ≤ parameters → parameters < overflow * 2 ^ 18 →
      ∃ size text reading, weightMegabytes parameters = .ok size ∧
        megabytes (.real size) = .ok text ∧ read? text = some reading ∧
        (reading.unit = "KB" → reading.number ≤ 1024 ∧
          (reading.number = 1024 ↔ parameters = 2 ^ 18 - 1))) ∧
    (∀ parameters : Int, overflow * 2 ^ 18 ≤ parameters →
      weightMegabytes parameters = .error .quotientTooLarge) := by
  refine ⟨fun n hn hfinite => ?_, fun n hn hfinite => ?_, fun parameters => read?_megabytes,
    fun parameters => weightMegabytes_error⟩
  · obtain ⟨text, reading, htext, hread, hwithin⟩ := ladder_count.within hn hfinite
    refine ⟨text, reading, htext, hread, ?_⟩
    simpa [unitOf] using hwithin
  · obtain ⟨text, reading, htext, hread, hwithin⟩ := ladder_bytes.within hn hfinite
    refine ⟨text, reading, htext, hread, ?_⟩
    simpa [unitOf] using hwithin

theorem sizes_below_next_unit_million :
    (∃ text reading, count (.int 999999) = .ok text ∧ read? text = some reading ∧
      ∀ entry ∈ [("G", 10 ^ 9), ("M", 10 ^ 6), ("K", 10 ^ 3)],
        reading.unit = entry.1 → reading.Within entry.2 999999) ∧
    (∃ text reading, bytes (.int 999999) = .ok text ∧ read? text = some reading ∧
      ∀ entry ∈ [("MB", 10 ^ 6), ("KB", 10 ^ 3)],
        reading.unit = entry.1 → reading.Within entry.2 999999) ∧
    (∃ size text reading, weightMegabytes 262143 = .ok size ∧
      megabytes (.real size) = .ok text ∧ read? text = some reading ∧
      (reading.unit = "KB" → reading.number ≤ 1024 ∧
        (reading.number = 1024 ↔ (262143 : Int) = 2 ^ 18 - 1))) ∧
    weightMegabytes (overflow * 2 ^ 18) = .error .quotientTooLarge := by
  have hsome : (Binary64.ofInt? 999999).isSome := by decide +kernel
  have hweights : (262143 : Int) < overflow * 2 ^ 18 := by decide +kernel
  obtain ⟨hcount, hbytes, hmegabytes, hlarge⟩ := sizes_below_next_unit
  exact ⟨hcount 999999 (by decide) hsome, hbytes 999999 (by decide) hsome,
    hmegabytes 262143 (by decide) hweights, hlarge _ le_rfl⟩

/-- The next unit is reached in each of the three texts. -/
theorem not_every_size_below_next_unit :
    (¬ ∀ n : Int, 0 ≤ n → (Binary64.ofInt? n).isSome → ∀ text reading,
      count (.int n) = .ok text → read? text = some reading → reading.unit ∈ ["K", "M", "G"] →
        1 ≤ reading.number ∧ reading.number < 1000) ∧
    (¬ ∀ n : Int, 0 ≤ n → (Binary64.ofInt? n).isSome → ∀ text reading,
      bytes (.int n) = .ok text → read? text = some reading → reading.unit ∈ ["KB", "MB"] →
        1 ≤ reading.number ∧ reading.number < 1000) ∧
    ¬ ∀ parameters : Int, 0 ≤ parameters → ∀ size text reading,
      weightMegabytes parameters = .ok size → megabytes (.real size) = .ok text →
        read? text = some reading → reading.unit = "KB" → reading.number < 1024 := by
  have hsome : (Binary64.ofInt? 999999).isSome := by decide +kernel
  refine ⟨fun h => ?_, fun h => ?_, fun h => ?_⟩
  · have htext : count (.int 999999) = .ok "1000.00K" := eq_ok_of_toOption (by decide +kernel)
    have hread : read? "1000.00K" = some ⟨1000, "K"⟩ := by decide +kernel
    exact lt_irrefl _ (h 999999 (by decide) hsome _ _ htext hread (by decide)).2
  · have htext : bytes (.int 999999) = .ok "1000.00 KB" := eq_ok_of_toOption (by decide +kernel)
    have hread : read? "1000.00 KB" = some ⟨1000, "KB"⟩ := by decide +kernel
    exact lt_irrefl _ (h 999999 (by decide) hsome _ _ htext hread (by decide)).2
  · have hwritten : (weightMegabytes 262143 >>= fun size => megabytes (.real size)) =
        .ok "1024.00 KB" := eq_ok_of_toOption (by decide +kernel)
    obtain ⟨size, hsize, htext⟩ := bind_eq_ok.mp hwritten
    have hread : read? "1024.00 KB" = some ⟨1024, "KB"⟩ := by decide +kernel
    exact lt_irrefl _ (h 262143 (by decide) _ _ _ hsize htext hread (by decide))

end SizeText

end LayerStack
