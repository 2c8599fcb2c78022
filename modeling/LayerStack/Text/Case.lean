/-! The case of characters, as far as it settles which ASCII text a text is in another case. -/

namespace LayerStack.Text

/-- A character in lower case.  Of the characters outside ASCII only the sign for kelvin has a
lower case in ASCII. -/
def lowerChar (c : Char) : Char := if c = '\u212a' then 'k' else c.toLower

/-- The characters outside ASCII whose upper case is in ASCII. -/
def asciiUppers : List (Char × List Char) := [
  ('\u00df', ['S', 'S']), ('\u0131', ['I']), ('\u017f', ['S']), ('\ufb00', ['F', 'F']),
  ('\ufb01', ['F', 'I']), ('\ufb02', ['F', 'L']), ('\ufb03', ['F', 'F', 'I']),
  ('\ufb04', ['F', 'F', 'L']), ('\ufb05', ['S', 'T']), ('\ufb06', ['S', 'T'])]

def upperChars (c : Char) : List Char :=
  match asciiUppers.find? fun entry => decide (entry.1 = c) with
  | some entry => entry.2
  | none => [c.toUpper]

def lower (cs : List Char) : List Char := cs.map lowerChar

def upper (cs : List Char) : List Char := cs.flatMap upperChars

end LayerStack.Text
