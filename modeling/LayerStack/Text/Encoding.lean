import LayerStack.Text.Basic

/-! The encodings that JSON is sent in.  JSON starts with an ASCII character, so that the zeros
among the first bytes tell how many bytes a character has and which of them comes first. -/

namespace LayerStack.Text

/-- Which byte of several comes first. -/
inductive ByteOrder where
  | big
  | little
  deriving DecidableEq, Repr

inductive Encoding where
  | utf8
  | utf16 (order : ByteOrder)
  | utf32 (order : ByteOrder)
  deriving DecidableEq, Repr

namespace Encoding

/-- The encoding of JSON with the given bytes. -/
def ofBytes : List Nat → Encoding
  | [0, _] => .utf16 .big
  | [_, 0] => .utf16 .little
  | a :: b :: c :: d :: _ =>
    if a = 0 then if b = 0 then .utf32 .big else .utf16 .big
    else if b = 0 then if c = 0 ∧ d = 0 then .utf32 .little else .utf16 .little
    else .utf8
  | _ => .utf8

/-- The 16-bit units of bytes; an odd number of bytes has none. -/
def units16? (order : ByteOrder) : List Nat → Option (List Nat)
  | [] => some []
  | [_] => none
  | a :: b :: rest =>
    let unit := match order with
      | .big => 0x100 * a + b
      | .little => 0x100 * b + a
    (units16? order rest).map (unit :: ·)

/-- The code points of 16-bit units: a surrogate pair makes one, and a half alone stands for
itself. -/
def joinUnits : List Nat → List Nat
  | high :: low :: rest =>
    if isHighSurrogate high && isLowSurrogate low then joinSurrogates high low :: joinUnits rest
    else high :: joinUnits (low :: rest)
  | units => units

/-- The code points of bytes, four for each. -/
def points32? (order : ByteOrder) : List Nat → Option (List Nat)
  | [] => some []
  | a :: b :: c :: d :: rest =>
    let point := match order with
      | .big => 0x1000000 * a + 0x10000 * b + 0x100 * c + d
      | .little => 0x1000000 * d + 0x10000 * c + 0x100 * b + a
    if point < 0x110000 then (points32? order rest).map (point :: ·) else none
  | _ => none

end Encoding

/-- A byte order mark, which may stand at the front of UTF-8. -/
def byteOrderMark : Nat := 0xfeff

/-- A text without a mark at its front. -/
def dropMark (text : Text) : Text :=
  match text.points with
  | [] => text
  | n :: rest => if n = byteOrderMark then ⟨rest⟩ else text

/-- The text that the UTF-8 bytes of a string stand for as JSON, in whatever encoding they are. -/
def ofSent? (sent : String) : Option Text :=
  let bytes := sent.toUTF8.data.toList.map UInt8.toNat
  match Encoding.ofBytes bytes with
  | .utf8 => some (ofString sent).dropMark
  | .utf16 order => (Encoding.units16? order bytes).map fun units => ⟨Encoding.joinUnits units⟩
  | .utf32 order => (Encoding.points32? order bytes).map fun points => ⟨points⟩

end LayerStack.Text
