import Mathlib.Data.List.Basic

/-! Scans from the front of a text: what stands before and after the place where a scan stops. -/

namespace LayerStack

theorem takeWhile_append_eq {p : Char → Bool} {before after : List Char}
    (hbefore : ∀ c ∈ before, p c = true) (hafter : ∀ c ∈ after.head?, p c = false) :
    (before ++ after).takeWhile p = before ∧ (before ++ after).dropWhile p = after := by
  rw [List.takeWhile_append_of_pos hbefore, List.dropWhile_append_of_pos hbefore]
  cases after with
  | nil => simp
  | cons c rest =>
    have hc := hafter c (by simp)
    simp [hc]

theorem not_mem_of_forall {p : Char → Bool} {cs : List Char} (h : ∀ d ∈ cs, p d = true) {c : Char}
    (hc : p c = false) : c ∉ cs := by
  intro hmem
  rw [h c hmem] at hc
  contradiction

theorem bne_of_not_mem {c : Char} {cs : List Char} (h : c ∉ cs) : ∀ d ∈ cs, (d != c) = true := by
  intro d hd
  simp only [bne_iff_ne, ne_eq]
  rintro rfl
  exact h hd

/-- A text is cut at the first place of a character. -/
theorem takeWhile_cut {c : Char} {before : List Char} (h : c ∉ before) (after : List Char) :
    (before ++ c :: after).takeWhile (· != c) = before ∧
      (before ++ c :: after).dropWhile (· != c) = c :: after :=
  takeWhile_append_eq (bne_of_not_mem h) (by simp)

theorem not_mem_intercalate {c : Char} {separator : String} (hseparator : c ∉ separator.toList)
    {parts : List String} (h : ∀ part ∈ parts, c ∉ part.toList) :
    c ∉ (String.intercalate separator parts).toList := by
  induction parts with
  | nil => simp
  | cons first rest ih =>
    rw [List.forall_mem_cons] at h
    cases rest with
    | nil => simpa using h.1
    | cons second rest =>
      rw [String.intercalate_cons_cons, String.toList_append, String.toList_append,
        List.mem_append, List.mem_append]
      exact not_or.mpr ⟨not_or.mpr ⟨h.1, hseparator⟩, ih h.2⟩

@[simp] theorem dropPrefix?_append (before after : List Char) :
    (before ++ after).dropPrefix? before = some after := by
  induction before with
  | nil => simp
  | cons c rest ih => simpa [List.dropPrefix?] using ih

end LayerStack
