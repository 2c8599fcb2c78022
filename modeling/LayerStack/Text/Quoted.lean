import LayerStack.Text.Basic
import LayerStack.Text.Hex
import LayerStack.Text.Printable

/-! Quoted text in messages: between single quotes, or between double quotes if it holds a single
quote and no double one, with everything that would not be seen escaped. -/

namespace LayerStack.Text

/-- A code point between the quotes `mark`. -/
def escapePoint (mark : Char) (n : Nat) : List Char :=
  if n = mark.toNat ∨ n = '\\'.toNat then ['\\', Char.ofNat n]
  else if n = '\n'.toNat then ['\\', 'n']
  else if n = '\r'.toNat then ['\\', 'r']
  else if n = '\t'.toNat then ['\\', 't']
  else if isPrintable n then [Char.ofNat n]
  else if n < 0x100 then '\\' :: 'x' :: hexDigits 2 n
  else if n < 0x10000 then '\\' :: 'u' :: hexDigits 4 n
  else '\\' :: 'U' :: hexDigits 8 n

/-- The quotes that a text is written between. -/
def quoteMark (text : Text) : Char :=
  if '\x27'.toNat ∈ text.points ∧ '\x22'.toNat ∉ text.points then '\x22' else '\x27'

def quoted (text : Text) : String :=
  let mark := text.quoteMark
  String.ofList (mark :: text.points.flatMap (escapePoint mark) ++ [mark])

end LayerStack.Text
