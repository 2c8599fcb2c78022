import LayerStack.Text.Percent

/-! The targets of requests: references that may name a scheme and a host before a path, and a query
after it.  A client takes a target apart twice, so that what looks like a host at the front of the
path is dropped too. -/

namespace LayerStack.Web

/-- The path and the query of a target, both with their percent signs. -/
structure Target where
  path : List Char
  query : List Char
  deriving DecidableEq

namespace Target

/-- A reference without the blanks and control characters at its front, and without its tabs and
line ends. -/
def clean (cs : List Char) : List Char :=
  (cs.dropWhile fun c => decide (c.toNat ≤ 0x20)).filter fun c =>
    c ≠ '\t' && c ≠ '\n' && c ≠ '\r'

def isSchemeChar (c : Char) : Bool := c.isAlphanum || c == '+' || c == '-' || c == '.'

/-- A reference without its scheme, if it names one. -/
def dropScheme (cs : List Char) : List Char :=
  let scheme := cs.takeWhile (· ≠ ':')
  match cs.dropWhile (· ≠ ':') with
  | ':' :: rest => if (scheme.take 1).any Char.isAlpha && scheme.all isSchemeChar then rest else cs
  | _ => cs

/-- A reference without its host, which two slashes stand before. -/
def dropHost : List Char → List Char
  | '/' :: '/' :: rest => rest.dropWhile fun c => c ≠ '/' && c ≠ '?' && c ≠ '#'
  | cs => cs

/-- The path and the query of a reference; what follows a number sign is dropped. -/
def ofReference (cs : List Char) : Target :=
  let cs := (dropHost (dropScheme (clean cs))).takeWhile (· ≠ '#')
  ⟨cs.takeWhile (· ≠ '?'), (cs.dropWhile (· ≠ '?')).drop 1⟩

/-- A target as a reference. -/
def toReference (target : Target) : List Char :=
  if target.query.isEmpty then target.path else target.path ++ '?' :: target.query

/-- The target that a text is. -/
def ofString (s : String) : Target := ofReference (ofReference s.toList).toReference

/-- The path that is looked up: decoded, and with one slash at its front unless it is empty. -/
def lookupPath (target : Target) : List Char :=
  match Text.decodePercent target.path with
  | [] => []
  | cs => '/' :: cs.dropWhile (· == '/')

/-- The parts between the ampersands.  `part` holds the characters of the open part in reverse. -/
def splitQuery (part : List Char) : List Char → List (List Char)
  | [] => [part.reverse]
  | c :: rest =>
    if c = '&' then part.reverse :: splitQuery [] rest else splitQuery (c :: part) rest

/-- A name or a value in a query, in which a plus sign stands for a blank. -/
def decodeQuery (cs : List Char) : String :=
  String.ofList (Text.decodePercent (cs.map fun c => if c = '+' then ' ' else c))

def parameters (target : Target) : List (String × String) :=
  let parts := (splitQuery [] target.query).filter fun part => !part.isEmpty
  parts.map fun part =>
    (decodeQuery (part.takeWhile (· ≠ '=')), decodeQuery ((part.dropWhile (· ≠ '=')).drop 1))

end Target

end LayerStack.Web
