import LayerStack.Text.Hex

/-! Percent signs in text, which stand for bytes. -/

namespace LayerStack.Text

/-- The byte of two hexadecimal digits. -/
def byte? (a b : Char) : Option Nat := do
  let high ← hexValue? a.toNat
  let low ← hexValue? b.toNat
  return 16 * high + low

/-- The character of a byte.  All names that are compared with decoded text are ASCII, so that the
bytes outside it need not be told apart. -/
def byteChar (n : Nat) : Char := if n < 0x80 then Char.ofNat n else '\ufffd'

/-- The text in which every percent sign with two hexadecimal digits after it is the character of
its byte; any other percent sign stands for itself. -/
def decodePercent : List Char → List Char
  | '%' :: a :: b :: rest =>
    match byte? a b with
    | some n => byteChar n :: decodePercent rest
    | none => '%' :: decodePercent (a :: b :: rest)
  | c :: rest => c :: decodePercent rest
  | [] => []

end LayerStack.Text
