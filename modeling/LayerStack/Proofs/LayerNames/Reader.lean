import LayerStack.Proofs.ForwardPass.Reader
import LayerStack.Proofs.WrittenCalls

/-! The names that a program gives its layers, found by running it.  A call makes a layer if it has
an argument `name`, which may hold variables in braces.  Loops are run with their index, conditions
by the value of their flag, and a call of a function that the program defines runs the lines of that
function.  The reader knows nothing of how the text was made. -/

namespace LayerStack.Export

namespace Names

/-- The values of variables, as source; a variable whose value cannot be told has none. -/
abbrev Scope := List (String × Option String)

/-- A variable with the text after it, cut at the closing brace between them. -/
def hole? (scope : Scope) (part : List Char) : Option (List Char) := do
  let value ← (scope.lookup (String.ofList (part.takeWhile (· != '\x7d')))).join
  return value.toList ++ (part.dropWhile (· != '\x7d')).tail

/-- A text with the values of the variables that stand in braces. -/
def filled? (scope : Scope) (cs : List Char) : Option String :=
  match cs.splitOn '\x7b' with
  | [] => some ""
  | first :: parts =>
    (parts.mapM (hole? scope)).map fun values => String.ofList (first ++ values.flatten)

/-- The value of source: a text in quotes, the value of a variable, or the source itself. -/
def evaluate? (scope : Scope) (cs : List Char) : Option String :=
  match cs with
  | 'f' :: '"' :: text => filled? scope text.dropLast
  | '"' :: text => some (String.ofList text.dropLast)
  | _ => (scope.lookup (String.ofList cs)).getD (some (String.ofList cs))

/-- The expression that a line assigns or returns. -/
def expression? (text : List Char) : Option (List Char) :=
  (text.dropPrefix? "return ".toList).or ((text.dropWhile isWordChar).dropPrefix? " = ".toList)

/-- The names that a line gives, by what its call gives. -/
def ofLine? (ofCall? : Scope → WrittenCall → Option (List String)) (scope : Scope)
    (text : List Char) : Option (List String) :=
  match (expression? text).bind WrittenCall.ofText? with
  | some call => ofCall? scope call
  | none => some []

/-- The index of a loop and how often it goes round. -/
def loop? (scope : Scope) (text : List Char) : Option (String × Nat) := do
  let rest ← text.dropPrefix? "for ".toList
  let bound ← (rest.dropWhile isWordChar).dropPrefix? " in range(".toList
  let n ← Decimal.natural? (← evaluate? scope (bound.takeWhile (· != ')'))).toList
  if bound.dropWhile (· != ')') = "):".toList then
    some (String.ofList (rest.takeWhile isWordChar), n)
  else none

/-- Whether the flag of a condition is on. -/
def condition? (scope : Scope) (text : List Char) : Option Bool := do
  let rest ← text.dropPrefix? "if ".toList
  let value ← evaluate? scope (rest.takeWhile (· != ':'))
  if value = "True" then some true
  else if value = "False" then some false
  else none

mutual

/-- The names that are given by a line with what is in it. -/
def given? (ofCall? : Scope → WrittenCall → Option (List String)) (scope : Scope) :
    Outline → Option (List String)
  | .node _ text [] => ofLine? ofCall? scope text
  | .node _ text (first :: rest) =>
    if text.getLast? = some '(' then
      ofLine? ofCall? scope (text ++ (first :: rest).flatMap Outline.text ++ [')'])
    else
      match loop? scope text, condition? scope text with
      | some (index, n), _ =>
        ((List.range n).mapM fun i =>
          givenAll? ofCall? ((index, some (Decimal.natText i)) :: scope) (first :: rest)).map
            List.flatten
      | none, some true => givenAll? ofCall? scope (first :: rest)
      | none, some false => some []
      | none, none => none

def givenAll? (ofCall? : Scope → WrittenCall → Option (List String)) (scope : Scope) :
    List Outline → Option (List String)
  | [] => some []
  | first :: rest => do
    let names ← given? ofCall? scope first
    let more ← givenAll? ofCall? scope rest
    return names ++ more

end

/-- The value that a call has under a keyword, as it is written. -/
def argument? (call : WrittenCall) (keyword : String) : Option String :=
  (call.args.find? fun arg => decide (arg.keyword = some keyword)).map WrittenArg.value

/-- The name that a call gives to the layer that it makes, if it makes one. -/
def ofLayerCall? (scope : Scope) (call : WrittenCall) : Option (List String) :=
  match argument? call "name" with
  | some text => (evaluate? scope text.toList).map fun name => [name]
  | none => some []

/-- A function that a program defines. -/
structure Definition where
  name : String
  params : List String
  body : List Outline

def Definition.ofOutline? : Outline → Option Definition
  | .node _ text body => do
    let head ← text.dropPrefix? "def ".toList
    let call ← WrittenCall.ofText? head
    if call.rest = [':'] then some ⟨call.callee, call.args.map WrittenArg.value, body⟩ else none

/-- The variables of a function in a call, by keyword and by position. -/
def bindArgs (params : List String) (scope : Scope) (args : List WrittenArg) : Scope :=
  let value := fun arg : WrittenArg => evaluate? scope arg.value.toList
  (args.filterMap fun arg => arg.keyword.map fun keyword => (keyword, value arg)) ++
    params.zip ((args.filter fun arg => arg.keyword.isNone).map value)

/-- The names that a call gives: those of the function that it calls, if there is one. -/
def ofCall? (definitions : List Definition) (scope : Scope) (call : WrittenCall) :
    Option (List String) :=
  match definitions.find? fun definition => decide (definition.name = call.callee) with
  | some definition =>
    givenAll? ofLayerCall? (bindArgs definition.params scope call.args) definition.body
  | none => ofLayerCall? scope call

/-- The names of the layers that the function that builds a model makes from the input on. -/
def ofSource? (source : String) : Option (List String) := do
  let definitions := (Outline.ofText source).filterMap Definition.ofOutline?
  let build ← definitions.find? fun definition => decide (definition.name = "build_model")
  match build.body.dropWhile fun outline => decide (outline.text ≠ "x = inputs".toList) with
  | _ :: rest =>
    givenAll? (ofCall? definitions) [] (← Outline.beforeReturn? rest)
  | [] => none

variable {scope : Scope}

/-! ### Evaluation -/

theorem hole?_eq {v : String} (hv : '\x7d' ∉ v.toList) {value : String}
    (hvalue : scope.lookup v = some (some value)) (after : List Char) :
    hole? scope (v.toList ++ '\x7d' :: after) = some (value.toList ++ after) := by
  obtain ⟨htake, hdrop⟩ := takeWhile_cut hv after
  rw [hole?, htake, hdrop, String.ofList_toList, hvalue]
  rfl

/-- A text with variables has their values between what stands before and after them. -/
theorem evaluate?_holes {text : String} {first : List Char} {parts : List (List Char)}
    (htext : text.toList = 'f' :: '"' :: (['\x7b'].intercalate (first :: parts) ++ ['"']))
    (hparts : ∀ part ∈ first :: parts, '\x7b' ∉ part) :
    evaluate? scope text.toList =
      (parts.mapM (hole? scope)).map fun values => String.ofList (first ++ values.flatten) := by
  have hinside : ∀ cs : List Char, (cs ++ ['"']).dropLast = cs := by simp
  rw [htext, evaluate?, hinside, filled?, List.splitOn_intercalate _ hparts (by simp)]

theorem evaluate?_quotedName (name : String) :
    evaluate? scope (quotedName name).toList = some name := by simp [evaluate?, quotedName]

theorem evaluate?_of_not_mem {v : String} (h : '"' ∉ v.toList) :
    evaluate? scope v.toList = (scope.lookup v).getD (some v) := by
  rw [evaluate?.eq_def, String.ofList_toList]
  split
  next heq => simp [heq] at h
  next heq => simp [heq] at h
  · rfl

theorem evaluate?_indexedName {name index : String} (hname : '\x7b' ∉ name.toList)
    (hindex : '\x7b' ∉ index.toList ∧ '\x7d' ∉ index.toList) {value : String}
    (hvalue : scope.lookup index = some (some value)) :
    evaluate? scope (indexedName name index).toList = some (name ++ "_" ++ value) := by
  have htext : (indexedName name index).toList = 'f' :: '"' ::
      (['\x7b'].intercalate [name.toList ++ ['_'], index.toList ++ '\x7d' :: []] ++ ['"']) := by
    simp [indexedName, List.intercalate_cons_cons]
  rw [evaluate?_holes htext (by simp [hname, hindex.1])]
  simp [hole?_eq hindex.2 hvalue, ← String.toList_inj]

/-- The value of a variable with a text after it. -/
theorem evaluate?_suffixed {v : String} (hv : '\x7b' ∉ v.toList ∧ '\x7d' ∉ v.toList)
    {value : String} (hvalue : scope.lookup v = some (some value)) {suffix : String}
    (hsuffix : '\x7b' ∉ suffix.toList) :
    evaluate? scope ("f\"\x7b" ++ v ++ "\x7d" ++ suffix ++ "\"").toList =
      some (value ++ suffix) := by
  have htext : ("f\"\x7b" ++ v ++ "\x7d" ++ suffix ++ "\"").toList = 'f' :: '"' ::
      (['\x7b'].intercalate [[], v.toList ++ '\x7d' :: suffix.toList] ++ ['"']) := by
    simp [List.intercalate_cons_cons]
  rw [evaluate?_holes htext (by simp [hv.1, hsuffix])]
  simp [hole?_eq hv.2 hvalue]

/-- The values of two variables with a text between them. -/
theorem evaluate?_numbered {v index : String} (hv : '\x7b' ∉ v.toList ∧ '\x7d' ∉ v.toList)
    (hindex : '\x7b' ∉ index.toList ∧ '\x7d' ∉ index.toList) {value number : String}
    (hvalue : scope.lookup v = some (some value))
    (hnumber : scope.lookup index = some (some number)) {suffix : String}
    (hsuffix : '\x7b' ∉ suffix.toList) :
    evaluate? scope
        ("f\"\x7b" ++ v ++ "\x7d" ++ suffix ++ "\x7b" ++ index ++ "\x7d\"").toList =
      some (value ++ suffix ++ number) := by
  have htext : ("f\"\x7b" ++ v ++ "\x7d" ++ suffix ++ "\x7b" ++ index ++ "\x7d\"").toList =
      'f' :: '"' :: (['\x7b'].intercalate
        [[], v.toList ++ '\x7d' :: suffix.toList, index.toList ++ '\x7d' :: []] ++ ['"']) := by
    simp [List.intercalate_cons_cons]
  rw [evaluate?_holes htext (by simp [hv.1, hindex.1, hsuffix])]
  simp [hole?_eq hv.2 hvalue, hole?_eq hindex.2 hnumber, ← String.toList_inj]

/-! ### Lines and loops -/

theorem ofLine?_of_call {text : List Char} {call : WrittenCall}
    (h : (expression? text).bind WrittenCall.ofText? = some call)
    (ofCall? : Scope → WrittenCall → Option (List String)) :
    ofLine? ofCall? scope text = ofCall? scope call := by
  rw [ofLine?, h]

theorem ofLine?_of_name {text : List Char} {written : String}
    (h : ((expression? text).bind WrittenCall.ofText?).bind (argument? · "name") = some written) :
    ofLine? ofLayerCall? scope text = (evaluate? scope written.toList).map fun name => [name] := by
  obtain ⟨call, hcall, hname⟩ := Option.bind_eq_some_iff.mp h
  rw [ofLine?_of_call hcall, ofLayerCall?, hname]

theorem lookup_bindArgs (params : List String) {call : WrittenCall} {keyword text : String}
    (h : argument? call keyword = some text) :
    (bindArgs params scope call.args).lookup keyword = some (evaluate? scope text.toList) := by
  obtain ⟨callee, args, rest⟩ := call
  obtain ⟨found, hfound, rfl⟩ := Option.map_eq_some_iff.mp h
  clear h
  rw [bindArgs]
  -- What is bound by position comes later and does not matter.
  generalize params.zip _ = positional
  induction args with
  | nil => simp at hfound
  | cons arg args ih =>
    obtain ⟨_ | other, value⟩ := arg
    · rw [List.find?_cons_of_neg (by simp)] at hfound
      exact ih hfound
    · by_cases hother : other = keyword
      · subst hother
        rw [List.find?_cons_of_pos (by simp), Option.some.injEq] at hfound
        subst hfound
        simp
      · rw [List.find?_cons_of_neg (by simpa using hother)] at hfound
        have hne : (keyword == other) = false := by simpa using Ne.symm hother
        have hrest := ih hfound
        simpa [List.lookup_cons, hne] using hrest

theorem loop?_eq {v : String} (hv : ')' ∉ v.toList) {value : String} {n : Nat}
    (hvalue : evaluate? scope v.toList = some value) (hn : Decimal.natural? value.toList = some n) :
    loop? scope ("for i in range(" ++ v ++ "):").toList = some ("i", n) := by
  have htext : ("for i in range(" ++ v ++ "):").toList =
      "for ".toList ++ ("i".toList ++ (" in range(".toList ++ (v.toList ++ ')' :: [':']))) := by
    simp
  have hword : ∀ c ∈ "i".toList, isWordChar c = true := List.all_eq_true.mp rfl
  have hblank : ∀ c ∈ (" in range(".toList ++ (v.toList ++ ')' :: [':'])).head?,
      isWordChar c = false := by simp +decide
  have hclose : "):".toList = ')' :: [':'] := rfl
  obtain ⟨hindex, hrest⟩ := takeWhile_append_eq hword hblank
  obtain ⟨htake, hdrop⟩ := takeWhile_cut hv [':']
  rw [loop?, htext, dropPrefix?_append]
  simp only [Option.bind_eq_bind, Option.bind_some, hindex, hrest, dropPrefix?_append, htake, hdrop,
    hvalue, hn, hclose, if_true]
  rfl

theorem loop?_natText (n : Nat) (h : scope.lookup (Decimal.natText n) = none) :
    loop? scope ("for i in range(" ++ Decimal.natText n ++ "):").toList = some ("i", n) := by
  have hmark : ∀ c, isBareChar c = false → c ∉ (Decimal.natText n).toList :=
    fun _ => not_mem_of_forall (Decimal.bare_natText n)
  have hvalue : evaluate? scope (Decimal.natText n).toList = some (Decimal.natText n) := by
    rw [evaluate?_of_not_mem (hmark '"' rfl), h]
    rfl
  have hdigits : (Decimal.natText n).toList = Nat.toDigits 10 n := String.toList_ofList
  exact loop?_eq (hmark ')' rfl) hvalue (by rw [hdigits, Decimal.natural?_toDigits])

theorem condition?_eq {v : String} (hv : ':' ∉ v.toList) {b : Bool}
    (hvalue : evaluate? scope v.toList = some (Value.bool b).text.shown) :
    condition? scope ("if " ++ v ++ ":").toList = some b := by
  have htext : ("if " ++ v ++ ":").toList = "if ".toList ++ (v.toList ++ ':' :: []) := by simp
  rw [condition?, htext, dropPrefix?_append]
  simp only [Option.bind_eq_bind, Option.bind_some, (takeWhile_cut hv []).1, hvalue]
  cases b <;> rfl

theorem mapM_eq_some {α β : Type} {f : α → Option β} {g : α → β} {as : List α}
    (h : ∀ a ∈ as, f a = some (g a)) : as.mapM f = some (as.map g) := by
  induction as with
  | nil => rfl
  | cons a rest ih =>
    rw [List.forall_mem_cons] at h
    rw [List.mapM_cons, h.1, ih h.2]
    rfl

variable {ofCall? : Scope → WrittenCall → Option (List String)}

theorem given?_loop {text : List Char} (hopen : text.getLast? ≠ some '(') {index : String} {n : Nat}
    (hloop : loop? scope text = some (index, n)) {body : List Outline} (hbody : body ≠ [])
    {names : Nat → List String}
    (h : ∀ i < n, givenAll? ofCall? ((index, some (Decimal.natText i)) :: scope) body =
      some (names i)) (column : Nat) :
    given? ofCall? scope (.node column text body) = some ((List.range n).flatMap names) := by
  cases body with
  | nil => contradiction
  | cons first rest =>
    rw [given?, if_neg hopen, hloop]
    simp only
    rw [mapM_eq_some fun i hi => h i (List.mem_range.mp hi)]
    rfl

theorem given?_condition {text : List Char} (hopen : text.getLast? ≠ some '(') {b : Bool}
    (hloop : loop? scope text = none) (hcondition : condition? scope text = some b)
    {body : List Outline} (hbody : body ≠ []) (column : Nat) :
    given? ofCall? scope (.node column text body) =
      if b then givenAll? ofCall? scope body else some [] := by
  cases body with
  | nil => contradiction
  | cons first rest =>
    rw [given?, if_neg hopen, hloop, hcondition]
    cases b <;> rfl

end Names

end LayerStack.Export
