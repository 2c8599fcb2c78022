import LayerStack.Export.Call
import LayerStack.Proofs.Configured

/-! How numbers and flags are written in source: in letters, digits, points and signs. -/

namespace LayerStack

/-- A letter, a digit, a point or a sign. -/
def isBareChar (c : Char) : Bool := c.isAlphanum || c == '.' || c == '+' || c == '-'

def Bare (s : String) : Prop := ∀ c ∈ s.toList, isBareChar c = true

instance (s : String) : Decidable (Bare s) :=
  decidable_of_iff (s.toList.all isBareChar = true) List.all_eq_true

theorem bare_append {s t : String} : Bare (s ++ t) ↔ Bare s ∧ Bare t := by
  simp [Bare, or_imp, forall_and]

theorem bare_ofList {cs : List Char} :
    Bare (String.ofList cs) ↔ ∀ c ∈ cs, isBareChar c = true := by simp [Bare]

namespace Decimal

theorem isBareChar_of_mem_toDigits {n : Nat} : ∀ c ∈ Nat.toDigits 10 n, isBareChar c = true := by
  intro c hc
  simp [isBareChar, Char.isAlphanum, isDigit_of_mem_toDigits c hc]

theorem bare_natText (n : Nat) : Bare (natText n) := bare_ofList.mpr isBareChar_of_mem_toDigits

theorem bare_intText (n : Int) : Bare (intText n) := by
  rw [intText]
  split
  · exact bare_append.mpr ⟨by decide, bare_natText _⟩
  · exact bare_natText _

theorem isBareChar_padZeros {width : Nat} {cs : List Char} (h : ∀ c ∈ cs, isBareChar c = true) :
    ∀ c ∈ padZeros width cs, isBareChar c = true := by
  rw [padZeros, List.forall_mem_append]
  refine ⟨fun c hc => ?_, h⟩
  rw [List.eq_of_mem_replicate hc]
  rfl

theorem bare_exponentText (e : Int) : Bare (exponentText e) := by
  rw [exponentText, bare_append, bare_ofList]
  refine ⟨?_, isBareChar_padZeros isBareChar_of_mem_toDigits⟩
  split <;> decide

theorem bare_scientificText {ds : List Char} (h : ∀ c ∈ ds, isBareChar c = true) (e : Int) :
    Bare (scientificText ds e) := by
  have he : Bare "e" := by decide
  rw [scientificText.eq_def]
  split
  · exact bare_append.mpr ⟨bare_append.mpr ⟨bare_ofList.mpr h, he⟩, bare_exponentText e⟩
  next d rest _ =>
    rw [List.forall_mem_cons] at h
    have hdigits : Bare (String.ofList (d :: '.' :: rest)) := by
      rw [bare_ofList, List.forall_mem_cons, List.forall_mem_cons]
      exact ⟨h.1, rfl, h.2⟩
    exact bare_append.mpr ⟨bare_append.mpr ⟨hdigits, he⟩, bare_exponentText e⟩
  · decide

theorem bare_positionalText {ds : List Char} (h : ∀ c ∈ ds, isBareChar c = true) (e : Int) :
    Bare (positionalText ds e) := by
  have hzeros : ∀ n, ∀ c ∈ List.replicate n '0', isBareChar c = true := by
    intro n c hc
    rw [List.eq_of_mem_replicate hc]
    rfl
  rw [positionalText]
  split
  · simp only [bare_ofList, List.forall_mem_cons, List.forall_mem_append]
    exact ⟨rfl, rfl, hzeros _, h⟩
  · simp only [bare_ofList, List.forall_mem_cons, List.forall_mem_append]
    refine ⟨⟨fun c hc => h c (List.mem_of_mem_take hc), hzeros _⟩, rfl, ?_⟩
    split
    · exact List.all_eq_true.mp rfl
    · exact fun c hc => h c (List.mem_of_mem_drop hc)

theorem bare_magnitudeText (m : Rat) : Bare (magnitudeText m) := by
  rw [magnitudeText]
  split
  · decide
  have hdigits : ∀ c ∈ significant (Nat.toDigits 10 (shortest m).digits), isBareChar c = true := by
    intro c hc
    have hmem := (List.dropWhile_sublist _).subset (List.mem_reverse.mp hc)
    exact isBareChar_of_mem_toDigits c (List.mem_reverse.mp hmem)
  simp only
  split
  · exact bare_positionalText hdigits _
  · exact bare_scientificText hdigits _

theorem bare_shortestText (x : Binary64) : Bare (shortestText x) := by
  cases x with
  | finite negative m h =>
    rw [shortestText, bare_append]
    refine ⟨?_, bare_magnitudeText m⟩
    cases negative <;> decide
  | infinite negative => cases negative <;> decide
  | nan => decide

end Decimal

theorem Number.bare_text (x : Number) : Bare x.text := by
  cases x with
  | int n => exact Decimal.bare_intText n
  | real x => exact Decimal.bare_shortestText x

/-- Numbers and flags are written bare. -/
theorem Value.bare_of_number? {v : Value} {x : Number} (h : v.number? = some x) :
    Bare v.text.shown := by
  cases v with
  | bool b => cases b <;> decide
  | num x => simpa [text, spelling] using x.bare_text
  | _ => simp [number?] at h

theorem FieldRange.Holds.number?_isSome {range : FieldRange} {v : Value} (h : range.Holds v) :
    ∃ x, v.number? = some x := by
  cases h with
  | whole => exact ⟨_, rfl⟩
  | real => exact ⟨_, rfl⟩
  | flag => exact ⟨_, rfl⟩

end LayerStack
