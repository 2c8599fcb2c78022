import LayerStack.Json.Value
import LayerStack.Machine

/-! The reader of JSON text.  Besides the standard it takes the names of the doubles that are not
finite; a number with neither places nor an exponent is whole, any other one a double, and of two
members with the same name the later one counts.  Lists and objects may be nested only as deep as
the machine has room for. -/

namespace LayerStack.Json

inductive Problem where
  | malformed
  /-- Too many lists and objects are open at a time. -/
  | tooDeep
  deriving DecidableEq, Repr

@[match_pattern] abbrev doubleQuote : Nat := 0x22

@[match_pattern] abbrev comma : Nat := 0x2c

@[match_pattern] abbrev minus : Nat := 0x2d

@[match_pattern] abbrev point : Nat := 0x2e

@[match_pattern] abbrev zeroDigit : Nat := 0x30

@[match_pattern] abbrev colon : Nat := 0x3a

@[match_pattern] abbrev openBracket : Nat := 0x5b

@[match_pattern] abbrev backslash : Nat := 0x5c

@[match_pattern] abbrev closeBracket : Nat := 0x5d

@[match_pattern] abbrev letterU : Nat := 0x75

@[match_pattern] abbrev openBrace : Nat := 0x7b

@[match_pattern] abbrev closeBrace : Nat := 0x7d

def isBlank (n : Nat) : Bool := n == 0x20 || n == 0x9 || n == 0xa || n == 0xd

def skipBlank (ns : List Nat) : List Nat := ns.dropWhile isBlank

/-- What follows `word`, if the text starts with it. -/
def afterWord? : List Char → List Nat → Option (List Nat)
  | [], ns => some ns
  | _, [] => none
  | w :: word, n :: ns => if w.toNat = n then afterWord? word ns else none

def isDigit (n : Nat) : Bool := decide ('0'.toNat ≤ n ∧ n ≤ '9'.toNat)

def natOfDigits (ns : List Nat) : Nat := Decimal.natOfDigits (ns.map fun n => n - '0'.toNat)

/-- The digits before the point, one zero or a run that starts with another digit. -/
def scanWhole : List Nat → List Nat × List Nat
  | zeroDigit :: rest => ([zeroDigit], rest)
  | ns => (ns.takeWhile isDigit, ns.dropWhile isDigit)

/-- The places, if a point and at least one digit follow. -/
def scanPlaces (ns : List Nat) : List Nat × List Nat :=
  match ns with
  | point :: rest =>
    match rest.takeWhile isDigit with
    | [] => ([], ns)
    | ds => (ds, rest.dropWhile isDigit)
  | _ => ([], ns)

/-- The sign and the digits of an exponent, if one follows. -/
def scanExponent? (ns : List Nat) : Option (Bool × List Nat × List Nat) :=
  let signed (negative : Bool) (rest : List Nat) :=
    match rest.takeWhile isDigit with
    | [] => none
    | ds => some (negative, ds, rest.dropWhile isDigit)
  match ns with
  | n :: rest =>
    if n = 'e'.toNat ∨ n = 'E'.toNat then
      match rest with
      | sign :: digits =>
        if sign = '-'.toNat then signed true digits
        else if sign = '+'.toNat then signed false digits
        else signed false rest
      | [] => none
    else none
  | [] => none

def scanNumber? (ns : List Nat) : Option (Number × List Nat) :=
  let negative := ns.head? == some minus
  let (whole, afterWhole) := scanWhole (if negative then ns.drop 1 else ns)
  let (places, afterPlaces) := scanPlaces afterWhole
  if whole.isEmpty then none
  else
    let digits := natOfDigits (whole ++ places)
    match scanExponent? afterPlaces with
    | some (below, ds, rest) =>
      let e : Int := if below then -natOfDigits ds else natOfDigits ds
      some (.real (.ofDecimal negative digits (e - places.length)), rest)
    | none =>
      if !places.isEmpty then
        some (.real (.ofDecimal negative digits (-places.length)), afterPlaces)
      else if Decimal.maxNumeralDigits < whole.length then none
      else some (.int (if negative then -digits else digits), afterPlaces)

/-- A piece of a string: a code point, or a code unit that is written by its number. -/
inductive Piece where
  | plain (n : Nat)
  | unit (n : Nat)
  deriving DecidableEq, Repr

def codeUnit? (a b c d : Nat) : Option Nat := do
  let a ← Text.hexValue? a
  let b ← Text.hexValue? b
  let c ← Text.hexValue? c
  let d ← Text.hexValue? d
  some (((a * 16 + b) * 16 + c) * 16 + d)

/-- The code point that is escaped by one letter or mark. -/
def escaped? (n : Nat) : Option Nat :=
  let table : List (Char × Nat) := [
    ('"', 0x22), ('\\', 0x5c), ('/', 0x2f), ('b', 0x08), ('f', 0x0c), ('n', 0x0a), ('r', 0x0d),
    ('t', 0x09)]
  (table.find? fun entry => decide (entry.1.toNat = n)).map (·.2)

/-- The pieces of a string up to its closing quote, and what follows. -/
def scanString? : List Nat → Option (List Piece × List Nat)
  | [] => none
  | doubleQuote :: rest => some ([], rest)
  | backslash :: letterU :: a :: b :: c :: d :: rest => do
    let unit ← codeUnit? a b c d
    let (pieces, rest) ← scanString? rest
    some (.unit unit :: pieces, rest)
  | backslash :: n :: rest => do
    let n ← escaped? n
    let (pieces, rest) ← scanString? rest
    some (.plain n :: pieces, rest)
  | n :: rest =>
    if n < 0x20 ∨ n = backslash then none
    else do
      let (pieces, rest) ← scanString? rest
      some (.plain n :: pieces, rest)

/-- The code points of pieces; two units that follow each other may make up a surrogate pair. -/
def joinPieces : List Piece → List Nat
  | .unit high :: .unit low :: rest =>
    if Text.isHighSurrogate high && Text.isLowSurrogate low then
      Text.joinSurrogates high low :: joinPieces rest
    else high :: joinPieces (.unit low :: rest)
  | .unit n :: rest => n :: joinPieces rest
  | .plain n :: rest => n :: joinPieces rest
  | [] => []

/-- A string after its opening quote, and what follows it. -/
def readString (ns : List Nat) : Except Problem (Text × List Nat) :=
  match scanString? ns with
  | some (pieces, rest) => .ok (⟨joinPieces pieces⟩, rest)
  | none => .error .malformed

/-- A value spelt by a word, or a number. -/
def readScalar (ns : List Nat) : Except Problem (Value × List Nat) :=
  let words : List (String × Value) := [
    ("null", .null), ("true", .bool true), ("false", .bool false), ("NaN", .real .nan),
    ("Infinity", .real (.infinite false)), ("-Infinity", .real (.infinite true))]
  let word? := words.findSome? fun word =>
    (afterWord? word.1.toList ns).map fun rest => (word.2, rest)
  match word? <|> (scanNumber? ns).map fun scanned => (.num scanned.1, scanned.2) with
  | some read => .ok read
  | none => .error .malformed

mutual

/-- A value that starts at the first code point, and what follows it, with `depth` more lists and
objects allowed to be open. -/
def readValue (fuel depth : Nat) (ns : List Nat) : Except Problem (Value × List Nat) :=
  match fuel with
  | 0 => .error .malformed
  | fuel + 1 =>
    match ns with
    | doubleQuote :: rest => do
      let (s, rest) ← readString rest
      return (.str s, rest)
    | openBracket :: rest =>
      match depth with
      | 0 => .error .tooDeep
      | depth + 1 =>
        match skipBlank rest with
        | closeBracket :: rest => .ok (.list [], rest)
        | rest => do
          let (items, rest) ← readItems fuel depth rest
          return (.list items, rest)
    | openBrace :: rest =>
      match depth with
      | 0 => .error .tooDeep
      | depth + 1 =>
        match skipBlank rest with
        | closeBrace :: rest => .ok (.obj [], rest)
        | rest => do
          let (pairs, rest) ← readMembers fuel depth rest
          return (.obj (Entries.ofPairs pairs), rest)
    | ns => readScalar ns

/-- The items of a list up to its end, at least one. -/
def readItems (fuel depth : Nat) (ns : List Nat) : Except Problem (List Value × List Nat) :=
  match fuel with
  | 0 => .error .malformed
  | fuel + 1 => do
    let (item, rest) ← readValue fuel depth ns
    match skipBlank rest with
    | comma :: rest =>
      let (items, rest) ← readItems fuel depth (skipBlank rest)
      return (item :: items, rest)
    | closeBracket :: rest => return ([item], rest)
    | _ => throw .malformed

/-- The members of an object up to its end, at least one. -/
def readMembers (fuel depth : Nat) (ns : List Nat) :
    Except Problem (List (Text × Value) × List Nat) :=
  match fuel with
  | 0 => .error .malformed
  | fuel + 1 =>
    match ns with
    | doubleQuote :: rest => do
      let (key, rest) ← readString rest
      match skipBlank rest with
      | colon :: rest =>
        let (value, rest) ← readValue fuel depth (skipBlank rest)
        match skipBlank rest with
        | comma :: rest =>
          let (pairs, rest) ← readMembers fuel depth (skipBlank rest)
          return ((key, value) :: pairs, rest)
        | closeBrace :: rest => return ([(key, value)], rest)
        | _ => throw .malformed
      | _ => throw .malformed
    | _ => .error .malformed

end

def read [Machine] (text : Text) : Except Problem Value := do
  let ns := skipBlank text.points
  let (value, rest) ← readValue (2 * ns.length + 2) Machine.maxDepth ns
  if (skipBlank rest).isEmpty then return value else throw .malformed

end LayerStack.Json
