/-! Source text as a tree of statements: a block stands four columns deeper than its head, and so do
the lines inside a bracket that is left open. -/

namespace LayerStack.Export

inductive Statement where
  | blank
  | line (text : String)
  /-- A head with the statements under it. -/
  | block (head : String) (body : List Statement)
  /-- A line that leaves a bracket open, the lines in it, and the line that closes it. -/
  | bracket (opening : String) (inner : List String) (closing : String)

namespace Statement

def indented (depth : Nat) (text : String) : String :=
  String.ofList (List.replicate (4 * depth) ' ') ++ text

mutual

def lines (depth : Nat) : Statement → List String
  | .blank => [""]
  | .line text => [indented depth text]
  | .block head body => indented depth head :: linesAll (depth + 1) body
  | .bracket opening inner closing =>
    indented depth opening :: inner.map (indented (depth + 1)) ++ [indented depth closing]

def linesAll (depth : Nat) : List Statement → List String
  | [] => []
  | statement :: rest => lines depth statement ++ linesAll depth rest

end

/-- The text of a whole program, every line of which is ended. -/
def programText (program : List Statement) : String :=
  String.intercalate "\n" (linesAll 0 program) ++ "\n"

/-- The note at the head of a program, with a blank line after it. -/
def heading (displayName : String) : List Statement := [
  .line "\"\"\"",
  .line (displayName ++ " model"),
  .line "Generated by LayerCal",
  .line "\"\"\"",
  .blank]

end Statement

end LayerStack.Export
