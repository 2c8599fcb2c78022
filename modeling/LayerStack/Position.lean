/-! Positions in a sequence: whole numbers of 64 bits with a sign, which count from the end when
they are negative. -/

namespace LayerStack

def maxPosition : Int := 9223372036854775807

/-- Whether a whole number can be a position. -/
def isPosition (n : Int) : Bool := decide (-maxPosition - 1 ≤ n ∧ n ≤ maxPosition)

/-- The place of a position in a list of `n` items: none if it lies outside. -/
def place? (n : Nat) (position : Int) : Option Nat :=
  let i := if position < 0 then position + n else position
  if 0 ≤ i ∧ i < n then some i.toNat else none

/-- The place before which an insertion at a position goes; one outside goes to the nearer end. -/
def insertionPlace (n : Nat) (position : Int) : Nat :=
  if position < 0 then (position + n).toNat else min position.toNat n

/-- The items with one more at a position. -/
def insertAt {α : Type} (items : List α) (position : Int) (x : α) : List α :=
  let place := insertionPlace items.length position
  items.take place ++ x :: items.drop place

/-- The item at a position and the others. -/
def takeOut? {α : Type} (items : List α) (position : Int) : Option (α × List α) := do
  let place ← place? items.length position
  let x ← items[place]?
  return (x, items.eraseIdx place)

theorem place?_lt {n : Nat} {position : Int} {i : Nat} (h : place? n position = some i) :
    i < n := by
  simp only [place?] at h
  split at h <;> simp at h <;> omega

theorem place?_eq_none_iff {n : Nat} {position : Int} :
    place? n position = none ↔ position < -(n : Int) ∨ (n : Int) ≤ position := by
  simp only [place?]
  split <;> split <;> simp <;> omega

theorem insertionPlace_le (n : Nat) (position : Int) : insertionPlace n position ≤ n := by
  simp only [insertionPlace]
  split <;> omega

@[simp] theorem length_insertAt {α : Type} (items : List α) (position : Int) (x : α) :
    (insertAt items position x).length = items.length + 1 := by
  have := insertionPlace_le items.length position
  simp [insertAt]
  omega

end LayerStack
