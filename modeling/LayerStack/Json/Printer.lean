import LayerStack.Json.Value

/-! JSON text of values: one line, members in their own order, and control characters, quotes,
backslashes and halves of surrogate pairs escaped in strings. -/

namespace LayerStack.Json

def escapePoint (n : Nat) : List Char :=
  match Text.char? n with
  | none => '\\' :: 'u' :: Text.hexDigits 4 n
  | some c =>
    if c = '"' ∨ c = '\\' then ['\\', c]
    else if n < 0x20 then '\\' :: 'u' :: Text.hexDigits 4 n
    else [c]

def stringText (s : Text) : String :=
  String.ofList ('"' :: s.points.flatMap escapePoint ++ ['"'])

/-- A number; the doubles that are not finite have names of their own. -/
def numberText : Number → String
  | .real (.infinite false) => "Infinity"
  | .real (.infinite true) => "-Infinity"
  | .real .nan => "NaN"
  | x => x.text

mutual

def print : Value → String
  | .null => "null"
  | .bool true => "true"
  | .bool false => "false"
  | .num x => numberText x
  | .str s => stringText s
  | .list items => "[" ++ printItems items ++ "]"
  | .obj members => "\x7b" ++ printMembers members ++ "\x7d"

def printItems : List Value → String
  | [] => ""
  | [v] => print v
  | v :: rest => print v ++ "," ++ printItems rest

def printMembers : List (Text × Value) → String
  | [] => ""
  | [(k, v)] => stringText k ++ ":" ++ print v
  | (k, v) :: rest => stringText k ++ ":" ++ print v ++ "," ++ printMembers rest

end

end LayerStack.Json
