import LayerStack.Layer.Count

/-! Calls in generated source: a name and arguments in parentheses, each a setting of a layer or a
fixed piece of source, by position or by keyword. -/

namespace LayerStack.Export

/-- The value of an argument. -/
inductive Atom where
  | setting (value : Value)
  | source (text : String)
  deriving DecidableEq

def Atom.text : Atom → String
  | .setting value => value.text.shown
  | .source text => text

/-- An argument, with its keyword if it has one. -/
structure Arg where
  keyword : Option String
  value : Atom
  deriving DecidableEq

namespace Arg

def positional (value : Value) : Arg := ⟨none, .setting value⟩

def keyed (keyword : String) (value : Value) : Arg := ⟨some keyword, .setting value⟩

/-- A fixed piece of source, by position. -/
def fixed (text : String) : Arg := ⟨none, .source text⟩

/-- A fixed piece of source under a keyword. -/
def keyedFixed (keyword text : String) : Arg := ⟨some keyword, .source text⟩

def text (arg : Arg) : String :=
  match arg.keyword with
  | some keyword => keyword ++ "=" ++ arg.value.text
  | none => arg.value.text

end Arg

structure Call where
  callee : String
  args : List Arg
  deriving DecidableEq

def Call.text (call : Call) : String :=
  call.callee ++ "(" ++ String.intercalate ", " (call.args.map Arg.text) ++ ")"

/-- The value of an amount that is written out. -/
def written (amount : Amount) : Except Fault Value := do
  let value ← amount
  if value.isWritable then return value else throw .unwritable

/-- The setting under a key, to be written out. -/
def readSetting (config : Config) (key : String) : Except Fault Value := written (config.read key)

/-- Whether the setting under a key is on, as a flag for generated source. -/
def readFlag (config : Config) (key : String) : Except Fault Value :=
  (config.readFlag key).map Value.bool

/-- A name in quotes. -/
def quotedName (name : String) : String := "\"" ++ name ++ "\""

/-- A name followed by the number of the pass through a repetition that counts in `index`. -/
def indexedName (name index : String) : String :=
  "f\"" ++ name ++ "_\x7b" ++ index ++ "\x7d\""

/-- Two sides of the same length. -/
def squareText (side : Value) : String :=
  "(" ++ side.text.shown ++ ", " ++ side.text.shown ++ ")"

end LayerStack.Export
