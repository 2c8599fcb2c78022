import LayerStack.Proofs.Literals
import LayerStack.Proofs.Scans

/-! Texts of numbers read back.  Seventeen digits are enough to tell a double from its neighbours,
so that the shortest text of a double is that of a decimal to which it is the nearest one; and a
whole number is read from digits alone, which the text of a double never is.  So the texts of two
numbers, and the values of fields in generated source, are the same only if the numbers and values
are. -/

namespace LayerStack

namespace Decimal

/-! ### The fewest digits -/

theorem nearest_of_shortest?_eq_some {m : Rat} {n : Nat} {s : Scaled} (h : shortest? m n = some s) :
    Binary64.nearest s.toRat = m := by
  simp only [shortest?] at h
  split at h
  next hlower hupper =>
    split at h <;> (rw [Option.some.injEq] at h; subst h)
    · exact of_decide_eq_true hlower
    · exact of_decide_eq_true hupper
  next hlower _ =>
    rw [Option.some.injEq] at h
    exact h ▸ of_decide_eq_true hlower
  next _ hupper =>
    rw [Option.some.injEq] at h
    exact h ▸ of_decide_eq_true hupper
  · simp at h

/-- Of two neighbours in steps that are small beside a double, one reads back as it. -/
theorem nearest_neighbour {m step : Rat} (hm : Binary64.IsMagnitude m) (hpos : 0 < m)
    (hstep : 0 < step) (hsmall : step * 10 ^ 16 ≤ m) :
    Binary64.nearest ((m / step).floor.toNat * step) = m ∨
      Binary64.nearest (((m / step).floor.toNat + 1 : Nat) * step) = m := by
  have hfloor : ((m / step).floor.toNat : Rat) = (m / step).floor := by
    have hnonneg : 0 ≤ (m / step).floor := Rat.le_floor_iff.mpr (by positivity)
    exact_mod_cast Int.toNat_of_nonneg hnonneg
  have hlower : (m / step).floor * step ≤ m := (le_div_iff₀ hstep).mp (Rat.floor_le _)
  have hupper : m < ((m / step).floor + 1) * step := by
    rw [← div_lt_iff₀ hstep]
    linarith [Rat.lt_floor (x := m / step)]
  rw [Nat.cast_add, Nat.cast_one, hfloor]
  -- The nearer one is half a step away at most.
  rcases le_total (m - (m / step).floor * step) (step / 2) with hnear | hfar
  · refine .inl (Binary64.nearest_of_close hm hpos ?_)
    rw [abs_of_nonpos (by linarith)]
    linarith
  · refine .inr (Binary64.nearest_of_close hm hpos ?_)
    rw [abs_of_pos (by linarith)]
    linarith

theorem isSome_shortest? {m : Rat} (hm : Binary64.IsMagnitude m) (hpos : 0 < m) :
    (shortest? m maxDigits).isSome := by
  have hstep : (0 : Rat) < 10 ^ (floorLog10 m - maxDigits + 1) := zpow_pos (by norm_num) _
  have hsmall : (10 : Rat) ^ (floorLog10 m - maxDigits + 1) * 10 ^ 16 ≤ m := by
    have hexponent : floorLog10 m = floorLog10 m - maxDigits + 1 + 16 := by
      simp only [maxDigits]
      omega
    have hlow := (floorLog10_spec hpos).1
    rw [hexponent, zpow_add₀ (by norm_num)] at hlow
    exact_mod_cast hlow
  have hreads := nearest_neighbour hm hpos hstep hsmall
  simp only [shortest?, Scaled.toRat]
  split <;> simp_all

theorem nearest_shortest {m : Rat} (hm : Binary64.IsMagnitude m) (hpos : 0 < m) :
    Binary64.nearest (shortest m).toRat = m := by
  rw [shortest]
  cases hfind : ((List.range maxDigits).map (· + 1)).findSome? (shortest? m) with
  | some s =>
    obtain ⟨n, -, hn⟩ := List.exists_of_findSome?_eq_some hfind
    exact nearest_of_shortest?_eq_some hn
  | none =>
    have hlast := List.findSome?_eq_none_iff.mp hfind maxDigits (by decide)
    have hsome := isSome_shortest? hm hpos
    rw [hlast] at hsome
    contradiction

/-! ### Reading -/

/-- The whole number that digits stand for; there has to be one digit at least. -/
def natural? (cs : List Char) : Option Nat :=
  if cs ≠ [] ∧ cs.all Char.isDigit = true then some (Nat.ofDigitChars 10 cs 0) else none

/-- The exponent that a decimal ends with, which is zero if nothing is left. -/
def exponent? : List Char → Option Int
  | [] => some 0
  | 'e' :: '-' :: ds => (natural? ds).map fun n => -n
  | 'e' :: '+' :: ds => (natural? ds).map fun n => n
  | _ => none

/-- The decimal that a text without a sign stands for. -/
def scaled? (cs : List Char) : Option Scaled :=
  let whole := cs.takeWhile Char.isDigit
  let rest := cs.dropWhile Char.isDigit
  let pointed := rest.head? = some '.'
  let places := if pointed then rest.tail.takeWhile Char.isDigit else []
  let rest := if pointed then rest.tail.dropWhile Char.isDigit else rest
  if whole = [] then none
  else (exponent? rest).map fun e => ⟨Nat.ofDigitChars 10 (whole ++ places) 0, e - places.length⟩

end Decimal

/-- The number that a text stands for: a whole number in digits alone, otherwise a double. -/
def Number.ofText? (cs : List Char) : Option Number :=
  let negative := decide (cs.head? = some '-')
  let body := if negative then cs.tail else cs
  match Decimal.natural? body with
  | some n => some (.int (if negative then -n else n))
  | none => (Decimal.scaled? body).map fun s => .real (Binary64.ofMagnitude negative s.toRat)

/-- The value that source stands for: a number, a flag, or a text in quotes. -/
def Value.ofSource? (cs : List Char) : Option Value :=
  match Number.ofText? cs with
  | some x => some (.num x)
  | none =>
    if cs = "True".toList then some (.bool true)
    else if cs = "False".toList then some (.bool false)
    else if cs.head? = some '"' ∧ cs.tail.getLast? = some '"' then
      some (.str (.ofString (String.ofList cs.tail.dropLast)))
    else none

namespace Decimal

variable {ds : List Char}

/-! ### Layouts -/

theorem natural?_eq_some (hne : ds ≠ []) (h : ∀ c ∈ ds, c.isDigit = true) :
    natural? ds = some (Nat.ofDigitChars 10 ds 0) := by
  rw [natural?, if_pos ⟨hne, List.all_eq_true.mpr h⟩]

@[simp] theorem natural?_toDigits (n : Nat) : natural? (Nat.toDigits 10 n) = some n := by
  rw [natural?_eq_some Nat.toDigits_ne_nil fun c hc => isDigit_of_mem_toDigits c hc,
    Nat.ofDigitChars_ten_toDigits]

theorem natural?_eq_none {c : Char} (hc : c.isDigit = false) (h : c ∈ ds) : natural? ds = none := by
  rw [natural?, if_neg]
  rintro ⟨-, hdigits⟩
  exact not_mem_of_forall (List.all_eq_true.mp hdigits) hc h

theorem isDigit_of_mem_zeros (n : Nat) : ∀ c ∈ List.replicate n '0', c.isDigit = true := by
  intro c hc
  rw [List.eq_of_mem_replicate hc]
  rfl

@[simp] theorem natural?_padZeros (width n : Nat) :
    natural? (padZeros width (Nat.toDigits 10 n)) = some n := by
  have hdigits : ∀ c ∈ padZeros width (Nat.toDigits 10 n), c.isDigit = true :=
    List.forall_mem_append.mpr ⟨isDigit_of_mem_zeros _, fun c hc => isDigit_of_mem_toDigits c hc⟩
  have hne : padZeros width (Nat.toDigits 10 n) ≠ [] := by
    simp [padZeros, Nat.toDigits_ne_nil]
  rw [natural?_eq_some hne hdigits, padZeros, Nat.ofDigitChars_append,
    Nat.ofDigitChars_replicate_zero, Nat.mul_zero, Nat.ofDigitChars_ten_toDigits]

theorem exponent?_exponentText (e : Int) :
    exponent? ('e' :: (exponentText e).toList) = some e := by
  rw [exponentText]
  split
  next hneg => simp [exponent?, abs_of_neg hneg]
  next hneg => simp [exponent?, abs_of_nonneg (not_lt.mp hneg)]

theorem scaled?_point {whole places : List Char} (rest : List Char) (hne : whole ≠ [])
    (hwhole : ∀ c ∈ whole, c.isDigit = true) (hplaces : ∀ c ∈ places, c.isDigit = true)
    (hrest : ∀ c ∈ rest.head?, c.isDigit = false) :
    scaled? (whole ++ '.' :: (places ++ rest)) = (exponent? rest).map fun e =>
      ⟨Nat.ofDigitChars 10 (whole ++ places) 0, e - places.length⟩ := by
  have hpoint : ∀ c ∈ ('.' :: (places ++ rest)).head?, c.isDigit = false := by simp
  obtain ⟨htake, hdrop⟩ := takeWhile_append_eq hwhole hpoint
  obtain ⟨htakes, hdrops⟩ := takeWhile_append_eq hplaces hrest
  simp only [scaled?, htake, hdrop, List.head?_cons, List.tail_cons, if_true, htakes, hdrops,
    if_neg hne]

theorem scaled?_exponent {whole : List Char} (rest : List Char) (hne : whole ≠ [])
    (hwhole : ∀ c ∈ whole, c.isDigit = true) :
    scaled? (whole ++ 'e' :: rest) =
      (exponent? ('e' :: rest)).map fun e => ⟨Nat.ofDigitChars 10 whole 0, e⟩ := by
  have hexponent : ∀ c ∈ ('e' :: rest).head?, c.isDigit = false := by simp
  obtain ⟨htake, hdrop⟩ := takeWhile_append_eq hwhole hexponent
  simp [scaled?, htake, hdrop, if_neg hne]

/-- The value of digits, the first of which has the given exponent. -/
def leading (ds : List Char) (e : Int) : Rat :=
  Scaled.toRat ⟨Nat.ofDigitChars 10 ds 0, e + 1 - ds.length⟩

/-- Zeros at the end change the exponent of the last digit but not the value. -/
theorem toRat_zeros (ds : List Char) (n : Nat) (e : Int) :
    Scaled.toRat ⟨Nat.ofDigitChars 10 (ds ++ List.replicate n '0') 0, e⟩ =
      Scaled.toRat ⟨Nat.ofDigitChars 10 ds 0, e + n⟩ := by
  rw [Nat.ofDigitChars_append, Nat.ofDigitChars_replicate_zero]
  simp only [Scaled.toRat, Nat.cast_mul, Nat.cast_pow]
  rw [zpow_add₀ (by norm_num), zpow_natCast]
  push_cast
  ring

theorem scaled?_positionalText (hne : ds ≠ []) (h : ∀ c ∈ ds, c.isDigit = true) (e : Int) :
    ∃ s, scaled? (positionalText ds e).toList = some s ∧ s.toRat = leading ds e := by
  have hread := fun (whole places : List Char) (hne : whole ≠ [])
      (hwhole : ∀ c ∈ whole, c.isDigit = true) (hplaces : ∀ c ∈ places, c.isDigit = true) =>
    scaled?_point [] hne hwhole hplaces (by simp)
  simp only [exponent?, Option.map_some, List.append_nil] at hread
  have hlength : 0 < ds.length := List.length_pos_iff.mpr hne
  rw [positionalText]
  split
  next hneg =>
    have hplaces : ∀ c ∈ List.replicate (e.natAbs - 1) '0' ++ ds, c.isDigit = true :=
      List.forall_mem_append.mpr ⟨isDigit_of_mem_zeros _, h⟩
    have hzero : ∀ c ∈ ['0'], c.isDigit = true := isDigit_of_mem_zeros 1
    refine ⟨_, by rw [String.toList_ofList]; exact hread ['0'] _ (by simp) hzero hplaces, ?_⟩
    have hexponent : 0 - ((List.replicate (e.natAbs - 1) '0' ++ ds).length : Int) =
        e + 1 - ds.length := by
      rw [List.length_append, List.length_replicate]
      omega
    rw [leading, hexponent]
    simp [Nat.ofDigitChars_append, Nat.ofDigitChars_cons]
  next hneg =>
    simp only [String.toList_ofList]
    split
    next hle =>
      rw [List.take_of_length_le hle]
      have hwhole : ∀ c ∈ ds ++ List.replicate (e.toNat + 1 - ds.length) '0', c.isDigit = true :=
        List.forall_mem_append.mpr ⟨h, isDigit_of_mem_zeros _⟩
      refine ⟨_, hread _ ['0'] (by simp [hne]) hwhole (isDigit_of_mem_zeros 1), ?_⟩
      rw [List.append_assoc, ← List.replicate_succ', toRat_zeros, leading]
      congr 2
      simp only [List.length_singleton]
      omega
    next hlt =>
      have hnone : e.toNat + 1 - ds.length = 0 := by omega
      have hwhole : ds.take (e.toNat + 1) ≠ [] := by
        rw [ne_eq, List.take_eq_nil_iff]
        exact not_or.mpr ⟨by omega, hne⟩
      rw [hnone, List.replicate_zero, List.append_nil]
      refine ⟨_, hread _ _ hwhole (fun c hc => h c (List.mem_of_mem_take hc))
        (fun c hc => h c (List.mem_of_mem_drop hc)), ?_⟩
      rw [List.take_append_drop, leading, List.length_drop]
      congr 2
      omega

theorem scaled?_scientificText (hne : ds ≠ []) (h : ∀ c ∈ ds, c.isDigit = true) (e : Int) :
    ∃ s, scaled? (scientificText ds e).toList = some s ∧ s.toRat = leading ds e := by
  cases ds with
  | nil => contradiction
  | cons d rest =>
    rw [List.forall_mem_cons] at h
    have hd : ∀ c ∈ [d], c.isDigit = true := by simpa using h.1
    cases rest with
    | nil =>
      have hread := scaled?_exponent (exponentText e).toList (by simp) hd
      rw [exponent?_exponentText, Option.map_some] at hread
      exact ⟨_, by simpa [scientificText] using hread, by simp [leading]⟩
    | cons d' rest =>
      have hread := scaled?_point ('e' :: (exponentText e).toList) (by simp) hd h.2 (by simp)
      rw [exponent?_exponentText, Option.map_some] at hread
      refine ⟨_, by simpa [scientificText] using hread, ?_⟩
      rw [leading]
      congr 2
      simp only [List.length_cons]
      omega

theorem significant_append (ds : List Char) :
    ∃ n, ds = significant ds ++ List.replicate n '0' := by
  have hsplit := List.takeWhile_append_dropWhile (p := (· == '0')) (l := ds.reverse)
  have hzeros : ds.reverse.takeWhile (· == '0') =
      List.replicate (ds.reverse.takeWhile (· == '0')).length '0' := by
    refine List.eq_replicate_length.mpr fun c hc => ?_
    simpa using List.all_eq_true.mp List.all_takeWhile c hc
  refine ⟨(ds.reverse.takeWhile (· == '0')).length, ?_⟩
  rw [significant, ← List.reverse_replicate, ← hzeros, ← List.reverse_append, hsplit,
    List.reverse_reverse]

/-- Without the zeros at its end a numeral still tells the value, by the exponent of its first
digit. -/
theorem leading_significant (s : Scaled) :
    leading (significant (Nat.toDigits 10 s.digits))
      (s.exponent + (Nat.toDigits 10 s.digits).length - 1) = s.toRat := by
  obtain ⟨n, hn⟩ := significant_append (Nat.toDigits 10 s.digits)
  have hvalue : Nat.ofDigitChars 10
      (significant (Nat.toDigits 10 s.digits) ++ List.replicate n '0') 0 = s.digits := by
    rw [← hn, Nat.ofDigitChars_ten_toDigits]
  have hzeros := toRat_zeros (significant (Nat.toDigits 10 s.digits)) n s.exponent
  have hlength := congrArg List.length hn
  rw [List.length_append, List.length_replicate] at hlength
  rw [hvalue] at hzeros
  rw [leading, show s.toRat = Scaled.toRat ⟨s.digits, s.exponent⟩ from rfl, hzeros]
  congr 2
  omega

/-- The shortest text of a magnitude reads back as a decimal to which it is the nearest double. -/
theorem scaled?_magnitudeText {m : Rat} (h : Binary64.IsMagnitude m) :
    ∃ s, scaled? (magnitudeText m).toList = some s ∧ Binary64.nearest s.toRat = m := by
  rw [magnitudeText]
  split
  next hzero =>
    refine ⟨⟨0, -1⟩, by decide, ?_⟩
    simp [Scaled.toRat, hzero]
  next hne =>
    have hnearest := nearest_shortest h (lt_of_le_of_ne h.1 (Ne.symm hne))
    generalize shortest m = s at hnearest
    have hsome : significant (Nat.toDigits 10 s.digits) ≠ [] := by
      intro hnil
      have hleading := leading_significant s
      have hvanish : s.toRat = 0 := by
        rw [← hleading, hnil]
        simp [leading, Scaled.toRat]
      rw [hvanish, Binary64.nearest_zero] at hnearest
      exact hne hnearest.symm
    have hdigits : ∀ c ∈ significant (Nat.toDigits 10 s.digits), c.isDigit = true := by
      intro c hc
      have hmem := (List.dropWhile_sublist _).subset (List.mem_reverse.mp hc)
      exact isDigit_of_mem_toDigits c (List.mem_reverse.mp hmem)
    rw [← leading_significant s] at hnearest
    simp only
    split
    · obtain ⟨read, hread, hvalue⟩ := scaled?_positionalText hsome hdigits _
      exact ⟨read, hread, hvalue ▸ hnearest⟩
    · obtain ⟨read, hread, hvalue⟩ := scaled?_scientificText hsome hdigits _
      exact ⟨read, hread, hvalue ▸ hnearest⟩

theorem head?_of_scaled? {cs : List Char} (h : (scaled? cs).isSome) :
    cs.head?.any Char.isDigit = true := by
  cases cs with
  | nil => simp [scaled?] at h
  | cons c rest =>
    cases hc : c.isDigit <;> simp_all [scaled?]

theorem natural?_magnitudeText (m : Rat) : natural? (magnitudeText m).toList = none := by
  have hpositional : ∀ ds e, natural? (positionalText ds e).toList = none := by
    intro ds e
    refine natural?_eq_none (c := '.') rfl ?_
    rw [positionalText]
    split <;> simp
  have hscientific : ∀ ds e, natural? (scientificText ds e).toList = none := by
    intro ds e
    rw [scientificText.eq_def]
    split
    · exact natural?_eq_none (c := 'e') rfl (by simp)
    · exact natural?_eq_none (c := 'e') rfl (by simp)
    · rfl
  rw [magnitudeText]
  split
  · decide
  simp only
  split
  · exact hpositional _ _
  · exact hscientific _ _

end Decimal

namespace Number

theorem ofText?_sign (negative : Bool) {body : List Char} (h : body.head?.any Char.isDigit = true) :
    ofText? ((if negative then "-" else "").toList ++ body) =
      match Decimal.natural? body with
      | some n => some (.int (if negative then -n else n))
      | none => (Decimal.scaled? body).map fun s =>
          .real (Binary64.ofMagnitude negative s.toRat) := by
  have hhead : body.head? ≠ some '-' := by
    intro hminus
    simp +decide [hminus] at h
  cases negative <;> simp [ofText?, hhead]

theorem ofText?_int (n : Int) : ofText? (int n).text.toList = some (int n) := by
  have hdigit : (Nat.toDigits 10 n.natAbs).head?.any Char.isDigit = true := by
    cases hdigits : Nat.toDigits 10 n.natAbs with
    | nil => exact absurd hdigits Nat.toDigits_ne_nil
    | cons c rest => simpa using Decimal.isDigit_of_mem_toDigits c (hdigits ▸ List.mem_cons_self)
  have htext : (int n).text.toList =
      (if decide (n < 0) then "-" else "").toList ++ Nat.toDigits 10 n.natAbs := by
    by_cases hneg : n < 0 <;> simp [text, Decimal.intText, Decimal.natText, hneg]
  rw [htext, ofText?_sign _ hdigit, Decimal.natural?_toDigits]
  by_cases hneg : n < 0
  · simp [hneg, abs_of_neg hneg]
  · simp [hneg, abs_of_nonneg (not_lt.mp hneg)]

theorem ofText?_text {x : Number} (h : x.isFinite = true) : ofText? x.text.toList = some x := by
  cases x with
  | int n => exact ofText?_int n
  | real x =>
    cases x with
    | infinite | nan => simp [isFinite, toBinary64?, Binary64.isFinite] at h
    | finite negative m hm =>
      obtain ⟨s, hread, hnearest⟩ := Decimal.scaled?_magnitudeText hm
      have hdigit := Decimal.head?_of_scaled? (Option.isSome_of_eq_some hread)
      have htext : (Number.real (.finite negative m hm)).text.toList =
          (if negative then "-" else "").toList ++ (Decimal.magnitudeText m).toList := by
        simp [text, Decimal.shortestText]
      rw [htext, ofText?_sign _ hdigit, Decimal.natural?_magnitudeText, hread]
      have hmagnitude : Binary64.IsMagnitude (Binary64.nearest s.toRat) := hnearest.symm ▸ hm
      simp [Binary64.ofMagnitude_eq_finite hmagnitude, hnearest]

end Number

namespace Value

theorem ofSource?_number {x : Number} (h : x.isFinite = true) :
    ofSource? (num x).text.shown.toList = some (num x) := by
  simp [ofSource?, text, spelling, Number.ofText?_text h]

@[simp] theorem ofSource?_int (n : Int) : ofSource? (int n).text.shown.toList = some (int n) := by
  simp [ofSource?, int, text, spelling, Number.ofText?_int]

theorem natural?_int {n : Int} (h : 1 ≤ n) :
    Decimal.natural? (int n).text.shown.toList = some n.toNat := by
  have hsign : ¬n < 0 := by omega
  have habs : n.natAbs = n.toNat := by omega
  have htext : (int n).text.shown.toList = Nat.toDigits 10 n.natAbs := by
    simp [int, text, spelling, Number.text, Decimal.intText, Decimal.natText, hsign]
  rw [htext, Decimal.natural?_toDigits, habs]

@[simp] theorem ofSource?_bool (b : Bool) :
    ofSource? (bool b).text.shown.toList = some (bool b) := by
  cases b <;> decide

end Value

end LayerStack
