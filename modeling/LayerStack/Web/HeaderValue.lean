import LayerStack.Entries
import LayerStack.Text.Case
import LayerStack.Text.Percent

/-! The values of headers: lists of items between commas, and items with parameters.  A value in
double quotes may hold any character, with a backslash before a quote or a backslash; an extended
value, whose name ends in a star, names a charset and holds its characters as percent signs and
digits, so that quotes around it are characters of the value; and a long value may be sent in parts
that are numbered after a star. -/

namespace LayerStack.Web.HeaderValue

def isBlank (c : Char) : Bool := c == ' ' || c == '\t'

/-- The characters without the blanks around them. -/
def trim (cs : List Char) : List Char :=
  ((cs.dropWhile isBlank).reverse.dropWhile isBlank).reverse

/-- The characters of names and plain values. -/
def isTokenChar (c : Char) : Bool := c.isAlphanum || "!#$%&'*+-.^_\x60|~".toList.contains c

/-- What is in a quoted string after its opening quote, with the backslashes, and what follows it;
none if the string is left open. -/
def scanQuoted? : List Char → Option (List Char × List Char)
  | [] => none
  | '\\' :: c :: rest => (scanQuoted? rest).map fun scanned => ('\\' :: c :: scanned.1, scanned.2)
  | c :: rest =>
    if c = '"' then some ([], rest)
    else (scanQuoted? rest).map fun scanned => (c :: scanned.1, scanned.2)

/-- The characters of a quoted string, in which a backslash keeps the character after it. -/
def unescape : List Char → List Char
  | '\\' :: c :: rest => c :: unescape rest
  | c :: rest => c :: unescape rest
  | [] => []

/-! ### Items -/

/-- The parts between the commas outside quoted strings; none if a quoted string is left open.
`part` holds the characters of the open part in reverse. -/
def splitItems? (quoting : Bool) (part : List Char) : List Char → Option (List (List Char))
  | [] => if quoting then none else some [trim part.reverse]
  | '\\' :: c :: rest =>
    if quoting then splitItems? true (c :: '\\' :: part) rest
    else splitItems? false ('\\' :: part) (c :: rest)
  | c :: rest =>
    if c = '"' then splitItems? (!quoting) (c :: part) rest
    else if c = ',' && !quoting then
      (splitItems? false [] rest).map fun items => trim part.reverse :: items
    else splitItems? quoting (c :: part) rest

/-- An item that is one quoted string stands for what is in it. -/
def unquoteItem (item : List Char) : List Char :=
  match item with
  | '"' :: rest =>
    match scanQuoted? rest with
    | some (quoted, []) => unescape quoted
    | _ => item
  | _ => item

/-- The items of a list; a list with a quoted string that is left open has none. -/
def items (cs : List Char) : List (List Char) :=
  let parts := (splitItems? false [] cs).getD []
  (parts.filter fun part => !part.isEmpty).map unquoteItem

/-! ### Parameters -/

/-- A parameter: its name in lower case, and its value. -/
abbrev Parameter := List Char × List Char

/-- The parameter at the front, if there is one, and what follows it.  The quotes around a value are
kept; a value whose quoted string is left open is none and reaches to the end. -/
def scanParameter (cs : List Char) : Option Parameter × List Char :=
  let name := cs.takeWhile isTokenChar
  match cs.dropWhile isTokenChar with
  | '=' :: rest =>
    if name.isEmpty then (none, rest)
    else
      match rest with
      | '"' :: inner =>
        match scanQuoted? inner with
        | some (quoted, rest) => (some (Text.lower name, '"' :: quoted ++ ['"']), rest)
        | none => (none, [])
      | _ =>
        let value := rest.takeWhile isTokenChar
        (if value.isEmpty then none else some (Text.lower name, value), rest)
  | rest => (none, rest)

/-- What follows the next semicolon, if there is one. -/
def afterSemicolon? : List Char → Option (List Char)
  | [] => none
  | c :: rest => if c = ';' then some (rest.dropWhile isBlank) else afterSemicolon? rest

/-- The parameters at the fronts of the sections, of which there are at most as many as there is
fuel. -/
def scanParameters (fuel : Nat) (cs : List Char) : List Parameter :=
  match fuel with
  | 0 => []
  | fuel + 1 =>
    let (parameter?, rest) := scanParameter cs
    let others := match afterSemicolon? rest with
      | some next => scanParameters fuel next
      | none => []
    match parameter? with
    | some parameter => parameter :: others
    | none => others

def writtenParameters (cs : List Char) : List Parameter := scanParameters (cs.length + 1) cs

/-- The charset and the characters of an extended value: two apostrophes stand between them, with
the name of a language in between that is passed over. -/
def charsetMark? (value : List Char) : Option (List Char × List Char) :=
  let charset := value.takeWhile (· ≠ '\x27')
  let language := (value.dropWhile (· ≠ '\x27')).drop 1
  match language.dropWhile (· ≠ '\x27') with
  | '\x27' :: c :: rest => if charset.all isTokenChar then some (charset, c :: rest) else none
  | _ => none

def knownCharsets : List String := ["ascii", "us-ascii", "utf-8", "iso-8859-1"]

/-- The charset that was named last, and the one that goes on for the values that name none. -/
structure Charsets where
  named : List Char
  continued : List Char

/-- An extended value decoded, and the charsets after it. -/
def decodeExtended (charsets : Charsets) (value : List Char) : List Char × Charsets :=
  let (named, value) := match charsetMark? value with
    | some (charset, value) => (Text.lower charset, value)
    | none => (charsets.named, value)
  let charset := if named.isEmpty then charsets.continued else named
  if String.ofList charset ∈ knownCharsets then (Text.decodePercent value, ⟨charset, charset⟩)
  else (value, { charsets with named := charset })

/-- A written value without the quotes around it. -/
def unquoteValue (value : List Char) : List Char :=
  match value with
  | '"' :: rest => if value.getLast? = some '"' then unescape rest.dropLast else value
  | _ => value

/-- The name of a parameter without the number of a part, if there is one after a star. -/
def partOf? (name : List Char) : Option (List Char) :=
  let rest := name.reverse.dropWhile Char.isDigit
  if rest.head? = some '*' && decide (rest.length < name.length) then some (rest.drop 1).reverse
  else none

/-- The values of parameters by name: an extended value is decoded and keeps its quotes, any other
one loses them, a part is put behind the parts before it, and of two values for a name the later one
counts. -/
def resolve (charsets : Charsets) (values : Entries (List Char) (List Char)) :
    List Parameter → Entries (List Char) (List Char)
  | [] => values
  | (name, value) :: rest =>
    let extended := name.getLast? = some '*'
    let (name, (value, charsets)) :=
      if extended then (name.dropLast, decodeExtended charsets value)
      else (name, (unquoteValue value, charsets))
    match partOf? name with
    | some whole =>
      resolve charsets (values.set whole ((values.get? whole).getD [] ++ value)) rest
    | none => resolve charsets (values.set name value) rest

/-- What an item says before its parameters. -/
def bare (cs : List Char) : List Char := trim (cs.takeWhile (· ≠ ';'))

/-- The values of the parameters of an item by name; an item that says nothing has none, and neither
has a parameter whose name is empty. -/
def parameters (cs : List Char) : Entries (List Char) (List Char) :=
  if (bare cs).isEmpty then []
  else
    let written := trim ((cs.dropWhile (· ≠ ';')).drop 1)
    (resolve ⟨[], []⟩ [] (writtenParameters written)).filter fun parameter => !parameter.1.isEmpty

end LayerStack.Web.HeaderValue
