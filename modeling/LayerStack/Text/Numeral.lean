import LayerStack.Numeric.Decimal
import LayerStack.Text.Basic

/-! Whole numbers as they are written in text: blanks around them, a sign, and decimal digits of any
script with single underscores between them. -/

namespace LayerStack.Text

/-- The zeros of the scripts of Unicode 14, each of which the other nine digits follow. -/
def zeros : List Nat := [
  0x30, 0x660, 0x6f0, 0x7c0, 0x966, 0x9e6, 0xa66, 0xae6, 0xb66, 0xbe6, 0xc66, 0xce6, 0xd66, 0xde6,
  0xe50, 0xed0, 0xf20, 0x1040, 0x1090, 0x17e0, 0x1810, 0x1946, 0x19d0, 0x1a80, 0x1a90, 0x1b50,
  0x1bb0, 0x1c40, 0x1c50, 0xa620, 0xa8d0, 0xa900, 0xa9d0, 0xa9f0, 0xaa50, 0xabf0, 0xff10, 0x104a0,
  0x10d30, 0x11066, 0x110f0, 0x11136, 0x111d0, 0x112f0, 0x11450, 0x114d0, 0x11650, 0x116c0,
  0x11730, 0x118e0, 0x11950, 0x11c50, 0x11d50, 0x11da0, 0x16a60, 0x16ac0, 0x16b50, 0x1d7ce,
  0x1d7d8, 0x1d7e2, 0x1d7ec, 0x1d7f6, 0x1e140, 0x1e2f0, 0x1e950, 0x1fbf0]

/-- The value of a decimal digit. -/
def digit? (n : Nat) : Option Nat :=
  (zeros.find? fun first => decide (first ≤ n ∧ n < first + 10)).map fun first => n - first

def wideBlanks : List Nat := [
  0x85, 0xa0, 0x1680, 0x2000, 0x2001, 0x2002, 0x2003, 0x2004, 0x2005, 0x2006, 0x2007, 0x2008,
  0x2009, 0x200a, 0x2028, 0x2029, 0x202f, 0x205f, 0x3000]

/-- A blank that may stand before or after a numeral. -/
def isBlankPoint (n : Nat) : Bool :=
  n == 0x20 || decide (0x9 ≤ n ∧ n ≤ 0xd) || wideBlanks.contains n

/-- The digits at the front, at least one, and what follows them.  An underscore has to stand
between two digits. -/
def scanDigits? : List Nat → Option (List Nat × List Nat)
  | [] => none
  | n :: rest =>
    match digit? n with
    | none => none
    | some d =>
      match rest with
      | [] => some ([d], [])
      | m :: more =>
        if m = '_'.toNat then (scanDigits? more).map fun r => (d :: r.1, r.2)
        else if (digit? m).isSome then (scanDigits? (m :: more)).map fun r => (d :: r.1, r.2)
        else some ([d], m :: more)

/-- A numeral at the front of a text, and what follows it. -/
structure Numeral where
  negative : Bool
  digits : List Nat
  rest : List Nat

namespace Numeral

/-- The numeral at the front of a text; blanks after it are passed over. -/
def ofText? (text : Text) : Option Numeral := do
  let points := text.points.dropWhile isBlankPoint
  let negative := points.head? == some '-'.toNat
  let signed := negative || points.head? == some '+'.toNat
  let (digits, rest) ← scanDigits? (if signed then points.drop 1 else points)
  return ⟨negative, digits, rest.dropWhile isBlankPoint⟩

/-- The number that a numeral stands for. -/
def value (numeral : Numeral) : Int :=
  let n := Decimal.natOfDigits numeral.digits
  if numeral.negative then -n else n

end Numeral

end LayerStack.Text
