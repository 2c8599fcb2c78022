import LayerStack.Framework
import LayerStack.Numeric.Decimal
import LayerStack.Proofs.Outline
import LayerStack.Proofs.Scans
import Mathlib.Data.List.Nodup

/-! Reading the forward pass of a generated program: the applications that are executed, one after
the other, when a value is passed through it.  The reader knows nothing of how the text was made.
The body of a loop counts as often as the loop goes round, and a member that was declared to hold
several copies of an element counts as that many applications of the element. -/

namespace LayerStack

namespace Export.Outline

/-- The numeral between the two texts that a line starts and ends with. -/
def count? (before after : String) (text : List Char) : Option Nat := do
  let rest ← text.dropPrefix? before.toList
  let digits := rest.takeWhile Char.isDigit
  if digits.isEmpty || decide (rest.dropWhile Char.isDigit ≠ after.toList) then none
  else some (Nat.ofDigitChars 10 digits 0)

mutual

/-- The lines that are executed for a line with what is in it: a loop goes round its lines. -/
def executed? : Outline → Option (List (List Char))
  | node _ text [] => some [text]
  | node _ text (first :: rest) => do
    let n ← count? "for i in range(" "):" text
    let body ← executedAll? (first :: rest)
    return (List.replicate n body).flatten

def executedAll? : List Outline → Option (List (List Char))
  | [] => some []
  | first :: rest => do
    let lines ← executed? first
    let more ← executedAll? rest
    return lines ++ more

end

def isReturn (outline : Outline) : Bool := "return ".toList.isPrefixOf outline.text

/-- The lines of a function up to its return, which has to be the last line. -/
def beforeReturn? (body : List Outline) : Option (List Outline) :=
  match body.dropWhile fun outline => !outline.isReturn with
  | [_] => some (body.takeWhile fun outline => !outline.isReturn)
  | _ => none

/-! ### Members of a class -/

/-- How a member holds its elements: it is the one element, applies them one after the other, or
lists them. -/
inductive Holder where
  | element
  | sequence
  | list
  deriving DecidableEq

/-- A member that is declared in a class, with the expression that makes its elements. -/
structure Declared where
  name : List Char
  holder : Holder
  count : Nat
  element : List Char
  deriving DecidableEq

/-- The name and the value in an assignment to a member. -/
def assigned? (text : List Char) : Option (List Char × List Char) := do
  let rest ← text.dropPrefix? "self.".toList
  let value ← (rest.dropWhile Char.isAlphanum).dropPrefix? " = ".toList
  return (rest.takeWhile Char.isAlphanum, value)

def holder? (opening : List Char) : Option Holder :=
  if opening = "nn.Sequential(*[".toList then some .sequence
  else if opening = "nn.ModuleList([".toList then some .list
  else none

def declared? : List Outline → Option (List Declared)
  | [] => some []
  | node _ text [] :: rest => do
    let (name, value) ← assigned? text
    let more ← declared? rest
    return ⟨name, .element, 1, value⟩ :: more
  | node _ text [node _ element [], node _ loop []] :: node _ closing [] :: rest => do
    let (name, opening) ← assigned? text
    let holder ← holder? opening
    let n ← count? "for _ in range(" ")" loop
    if closing = "])".toList then
      let more ← declared? rest
      return ⟨name, holder, n, element⟩ :: more
    else none
  | _ => none

/-- An application taken apart: what it assigns to, what it calls, and the operands. -/
structure Application where
  targets : List Char
  callee : List Char
  operands : List Char

/-- The application whose answer, or the part of it that is passed on, goes to the targets. -/
def applicationTo? (targets : String) (text : List Char) : Option Application :=
  (text.dropPrefix? targets.toList).map fun call =>
    ⟨targets.toList, call.takeWhile (· != '('), call.dropWhile (· != '(')⟩

/-- The application on a line that passes on the whole answer or its first part. -/
def application? (text : List Char) : Option Application :=
  (applicationTo? "x = " text).or (applicationTo? "x, _ = " text)

/-- The application with an expression in the place of what it calls. -/
def Application.calling (application : Application) (element : List Char) : List Char :=
  application.targets ++ element ++ application.operands

/-- The member of the given name that was declared last. -/
def lookup? (members : List Declared) (name : List Char) : Option Declared :=
  members.reverse.find? fun declared => decide (declared.name = name)

/-- The applications of elements that are executed for a line with what is in it. -/
def applied? (members : List Declared) : Outline → Option (List (List Char))
  | node _ text [] => do
    let application ← application? text
    let name ← application.callee.dropPrefix? "self.".toList
    let declared ← lookup? members name
    if declared.holder = .list then none
    else return List.replicate declared.count (application.calling declared.element)
  | node _ text [node _ body []] => do
    let rest ← text.dropPrefix? "for layer in self.".toList
    let declared ← lookup? members (rest.takeWhile (· != ':'))
    let application ← application? body
    if declared.holder = .list ∧ application.callee = "layer".toList ∧
        rest.dropWhile (· != ':') = [':'] then
      return List.replicate declared.count (application.calling declared.element)
    else none
  | _ => none

/-! ### The forward pass -/

/-- The applications in the forward pass of a module class with its members. -/
def torchPass? (outlines : List Outline) : Option (List (List Char)) := do
  let init ← under? ["class LayerCalModel(nn.Module):", "def __init__(self):"] outlines
  let forward ← under? ["class LayerCalModel(nn.Module):", "def forward(self, x):"] outlines
  match init with
  | node _ text [] :: declarations =>
    if text = "super().__init__()".toList then
      let members ← declared? declarations
      let lines ← (← beforeReturn? forward).mapM (applied? members)
      return lines.flatten
    else none
  | _ => none

/-- The applications in a function that builds a model, from the input on. -/
def kerasPass? (outlines : List Outline) : Option (List (List Char)) := do
  let build ← under? ["def build_model():"] outlines
  match build.dropWhile fun outline => decide (outline.text ≠ "x = inputs".toList) with
  | _ :: rest => executedAll? (← beforeReturn? rest)
  | [] => none

/-- The applications in the call of a module class. -/
def flaxPass? (outlines : List Outline) : Option (List (List Char)) := do
  let call ← under?
    ["class LayerCalModel(nn.Module):", "def __call__(self, x, train: bool = False):"] outlines
  executedAll? (← beforeReturn? call)

/-! ### What is read -/

theorem count?_natText (before after : String) (n : Nat)
    (hafter : after.toList.head?.any Char.isDigit = false) :
    count? before after (before ++ Decimal.natText n ++ after).toList = some n := by
  have hstop : ∀ c ∈ after.toList.head?, c.isDigit = false := by
    intro c hc
    simpa [Option.mem_def.mp hc] using hafter
  obtain ⟨htake, hdrop⟩ := takeWhile_append_eq (Decimal.isDigit_of_mem_toDigits (n := n)) hstop
  have hsome : (Nat.toDigits 10 n).isEmpty = false := by simp
  rw [String.toList_append, String.toList_append, List.append_assoc, Decimal.natText,
    String.toList_ofList, count?, dropPrefix?_append]
  simp only [Option.bind_eq_bind, Option.bind_some, htake, hdrop, hsome]
  simp

theorem assigned?_append {name : String} (hname : ∀ c ∈ name.toList, c.isAlphanum = true)
    (value : String) :
    assigned? ("self." ++ name ++ " = " ++ value).toList = some (name.toList, value.toList) := by
  have hafter : ∀ c ∈ (" = ".toList ++ value.toList).head?, c.isAlphanum = false := by
    simp +decide
  obtain ⟨htake, hdrop⟩ := takeWhile_append_eq hname hafter
  rw [String.toList_append, String.toList_append, String.toList_append, List.append_assoc,
    List.append_assoc, assigned?, dropPrefix?_append]
  simp only [Option.bind_eq_bind, Option.bind_some, htake, hdrop, dropPrefix?_append]
  rfl

theorem declared?_line {text name value : List Char} (h : assigned? text = some (name, value))
    (column : Nat) (rest : List Outline) :
    declared? (node column text [] :: rest) =
      (declared? rest).map (⟨name, .element, 1, value⟩ :: ·) := by
  simp only [declared?, h, Option.bind_eq_bind, Option.bind_some, Option.map_eq_bind]
  rfl

theorem declared?_bracket {text name opening element loop : List Char} {holder : Holder} {n : Nat}
    (h : assigned? text = some (name, opening)) (hholder : holder? opening = some holder)
    (hloop : count? "for _ in range(" ")" loop = some n) (column inner last closing : Nat)
    (rest : List Outline) :
    declared? (node column text [node inner element [], node last loop []] ::
        node closing "])".toList [] :: rest) =
      (declared? rest).map (⟨name, holder, n, element⟩ :: ·) := by
  simp only [declared?, h, hholder, hloop, Option.bind_eq_bind, Option.bind_some, if_true,
    Option.map_eq_bind]
  rfl

theorem applicationTo?_append (targets : String) {callee after : List Char} (hcallee : '(' ∉ callee)
    (hafter : after.head? = some '(') :
    applicationTo? targets (targets.toList ++ (callee ++ after)) =
      some ⟨targets.toList, callee, after⟩ := by
  have hstop : ∀ c ∈ after.head?, (c != '(') = false := by simp [hafter]
  obtain ⟨htake, hdrop⟩ := takeWhile_append_eq (bne_of_not_mem hcallee) hstop
  simp only [applicationTo?, dropPrefix?_append, Option.map_some, htake, hdrop]

theorem application?_append {targets : String} (htargets : targets = "x = " ∨ targets = "x, _ = ")
    {callee after : List Char} (hcallee : '(' ∉ callee) (hafter : after.head? = some '(') :
    application? (targets.toList ++ (callee ++ after)) =
      some ⟨targets.toList, callee, after⟩ := by
  have hread := applicationTo?_append targets hcallee hafter
  rw [application?]
  rcases htargets with rfl | rfl
  · rw [hread, Option.some_or]
  · rw [hread]
    rfl

theorem applied?_line {members : List Declared} {text name : List Char} {application : Application}
    {declared : Declared} (htext : application? text = some application)
    (hcallee : application.callee = "self.".toList ++ name)
    (hname : lookup? members name = some declared) (hholder : declared.holder ≠ .list)
    (column : Nat) :
    applied? members (node column text []) =
      some (List.replicate declared.count (application.calling declared.element)) := by
  simp only [applied?, htext, hcallee, hname, dropPrefix?_append, Option.bind_eq_bind,
    Option.bind_some, if_neg hholder]
  rfl

theorem applied?_loop {members : List Declared} {name body : List Char} {application : Application}
    {declared : Declared} (hbody : application? body = some application)
    (hcallee : application.callee = "layer".toList) (hcolon : ':' ∉ name)
    (hname : lookup? members name = some declared) (hholder : declared.holder = .list)
    (column inner : Nat) :
    applied? members
        (node column ("for layer in self.".toList ++ (name ++ [':'])) [node inner body []]) =
      some (List.replicate declared.count (application.calling declared.element)) := by
  have hstop : ∀ c ∈ [':'].head?, (c != ':') = false := by simp
  obtain ⟨htake, hdrop⟩ := takeWhile_append_eq (bne_of_not_mem hcolon) hstop
  simp only [applied?, hbody, hcallee, hname, dropPrefix?_append, Option.bind_eq_bind,
    Option.bind_some, htake, hdrop, hholder, and_self, if_true]
  rfl

theorem lookup?_of_mem {members : List Declared} (hnodup : (members.map Declared.name).Nodup)
    {declared : Declared} (h : declared ∈ members) :
    lookup? members declared.name = some declared := by
  have hfound :
      (members.reverse.find? fun other => decide (other.name = declared.name)).isSome := by
    rw [List.find?_isSome]
    exact ⟨declared, List.mem_reverse.mpr h, by simp⟩
  obtain ⟨other, hother⟩ := Option.isSome_iff_exists.mp hfound
  have hmem := List.mem_reverse.mp (List.mem_of_find?_eq_some hother)
  have hname : other.name = declared.name := by simpa using List.find?_some hother
  rw [lookup?, hother, List.inj_on_of_nodup_map hnodup hmem h hname]

theorem isReturn_eq_false {outline : Outline} (c : Char) (h : outline.text.head? = some c)
    (hc : c ≠ 'r') : outline.isReturn = false := by
  obtain ⟨column, text, inside⟩ := outline
  cases text with
  | nil => simp [Outline.text] at h
  | cons first rest =>
    obtain rfl : first = c := by simpa [Outline.text] using h
    simp [isReturn, Outline.text, List.isPrefixOf, hc.symm]

theorem beforeReturn?_append {body : List Outline} (h : ∀ outline ∈ body, outline.isReturn = false)
    {last : Outline} (hlast : last.isReturn = true) :
    beforeReturn? (body ++ [last]) = some body := by
  have hbody : ∀ outline ∈ body, (!outline.isReturn) = true := by
    intro outline houtline
    rw [h outline houtline]
    rfl
  simp [beforeReturn?, List.takeWhile_append_of_pos hbody, List.dropWhile_append_of_pos hbody,
    hlast]

end Export.Outline

namespace Framework

def forwardPass? (framework : Framework) (source : String) : Option (List String) :=
  let outlines := Export.Outline.ofText source
  let lines := match framework with
    | .pytorch => Export.Outline.torchPass? outlines
    | .tensorflow => Export.Outline.kerasPass? outlines
    | .jax => Export.Outline.flaxPass? outlines
  lines.map fun lines => lines.map String.ofList

end Framework

end LayerStack
