/-! Text as a sequence of code points.  Besides the characters it may hold single halves of
surrogate pairs, which JSON can write and which are no characters, so that texts that differ only in
them stay different. -/

namespace LayerStack

/-- A text, by the numbers of its code points. -/
structure Text where
  points : List Nat
  deriving DecidableEq, Inhabited

namespace Text

def ofString (s : String) : Text := ⟨s.toList.map Char.toNat⟩

instance : Coe String Text := ⟨ofString⟩

instance : Append Text := ⟨fun a b => ⟨a.points ++ b.points⟩⟩

def isEmpty (text : Text) : Bool := text.points.isEmpty

def isHighSurrogate (n : Nat) : Bool := decide (0xd800 ≤ n ∧ n < 0xdc00)

def isLowSurrogate (n : Nat) : Bool := decide (0xdc00 ≤ n ∧ n < 0xe000)

def joinSurrogates (high low : Nat) : Nat := 0x10000 + (high - 0xd800) * 0x400 + (low - 0xdc00)

/-- The character of a code point, if it is one. -/
def char? (n : Nat) : Option Char := if n.isValidChar then some (Char.ofNat n) else none

/-- The characters of a text, if it holds nothing else. -/
def string? (text : Text) : Option String := (text.points.mapM char?).map String.ofList

/-- The characters of a text, with U+FFFD for everything that is no character. -/
def shown (text : Text) : String :=
  String.ofList (text.points.map fun n => (char? n).getD '\ufffd')

theorem char?_toNat (c : Char) : char? c.toNat = some c := by
  have h : c.toNat.isValidChar := c.valid
  simp [char?, h, Char.ofNat_toNat]

theorem mapM_char?_toNat (cs : List Char) : (cs.map Char.toNat).mapM char? = some cs := by
  induction cs with
  | nil => rfl
  | cons c rest ih => simp [char?_toNat, ih]

@[simp] theorem string?_ofString (s : String) : (ofString s).string? = some s := by
  simp only [string?, ofString, mapM_char?_toNat, Option.map_some, String.ofList_toList]

theorem char?_eq_some {n : Nat} {c : Char} (h : char? n = some c) : n = c.toNat := by
  unfold char? at h
  split at h <;> simp at h
  next hvalid =>
    rw [← h, Char.ofNat, dif_pos hvalid]
    rfl

theorem mapM_char?_eq_some {points : List Nat} {cs : List Char}
    (h : points.mapM char? = some cs) : points = cs.map Char.toNat := by
  induction points generalizing cs with
  | nil => simp_all
  | cons n rest ih =>
    simp only [List.mapM_cons, Option.bind_eq_bind, Option.bind_eq_some_iff, Option.pure_def,
      Option.some.injEq] at h
    obtain ⟨c, hc, others, hothers, rfl⟩ := h
    rw [List.map_cons, ← char?_eq_some hc, ← ih hothers]

/-- Only the text of a string has its characters. -/
theorem string?_eq_some_iff {text : Text} {s : String} :
    text.string? = some s ↔ text = ofString s := by
  constructor
  · intro h
    obtain ⟨points⟩ := text
    obtain ⟨cs, hcs, rfl⟩ := Option.map_eq_some_iff.mp h
    have hpoints : points = cs.map Char.toNat := mapM_char?_eq_some hcs
    simp [ofString, hpoints]
  · rintro rfl
    exact string?_ofString s

theorem map_shown_toNat (cs : List Char) :
    (cs.map Char.toNat).map (fun n => (char? n).getD '\ufffd') = cs := by
  induction cs with
  | nil => rfl
  | cons c rest ih => simp [char?_toNat] at ih ⊢; exact ih

@[simp] theorem shown_ofString (s : String) : (ofString s).shown = s := by
  simp only [shown, ofString, map_shown_toNat, String.ofList_toList]

@[simp] theorem ofString_inj {s t : String} : ofString s = ofString t ↔ s = t := by
  constructor
  · intro h
    have := congrArg string? h
    simpa using this
  · intro h; rw [h]

end Text

end LayerStack
