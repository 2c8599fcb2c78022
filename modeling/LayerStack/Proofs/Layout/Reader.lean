import LayerStack.Proofs.Numerals

/-! Reading the layout of a generated program, without knowing how the text was made.  A scan of the
characters keeps track of the brackets and the quotes that are open, inside quotes too, and of the
words outside of them.  Lines that leave brackets open, and the lines of a docstring, are joined to
the line that they end on, and the joined lines are nested by their columns. -/

namespace LayerStack.Export.Layout

/-! ### Words -/

/-- The characters of names and numerals, with the signs. -/
def isWordChar (c : Char) : Bool := isBareChar c || c == '_'

/-- A name, or several with points between them, which does not stand for a number. -/
def isName (word : List Char) : Bool :=
  word.head?.any (fun c => c.isAlpha || c == '_') &&
    word.all (fun c => c.isAlphanum || c == '_' || c == '.') &&
    word != ['n', 'a', 'n'] && word != ['i', 'n', 'f']

/-- A decimal numeral of a finite number, which may have a sign. -/
def isNumeral (word : List Char) : Bool := (Number.ofText? word).any fun x => x.value?.isSome

/-- What may stand between other characters: nothing, a name, a point with a name after it, a finite
decimal numeral, or a sign. -/
def isWord (word : List Char) : Bool :=
  word.isEmpty || isName word || (word.head? == some '.' && isName word.tail) || isNumeral word ||
    word == ['+'] || word == ['-']

/-! ### Characters -/

def isMark (c : Char) : Bool := c == '"' || c == '\''

def isOpening (c : Char) : Bool := c == '(' || c == '[' || c == '\x7b'

/-- The bracket that a bracket closes. -/
def opening? (c : Char) : Option Char :=
  if c = ')' then some '('
  else if c = ']' then some '['
  else if c = '\x7d' then some '\x7b'
  else none

/-- What is open after a character that is no quote.  A bracket has to close the innermost one that
is open, and there are no backslashes. -/
def nest? (opened : List Char) (c : Char) : Option (List Char) :=
  if isOpening c then some (c :: opened)
  else
    match opening? c with
    | some bracket => if opened.head? = some bracket then some opened.tail else none
    | none => if c = '\\' then none else some opened

/-- What a scan keeps: the brackets and quotes that are open, the innermost first; the word that is
being read, or the text since the quote; the last character of code that was not blank; and whether
the rest of the line is a comment. -/
structure State where
  opened : List Char
  word : List Char
  last : Option Char
  comment : Bool
  deriving DecidableEq

namespace State

/-- A step in a text in quotes, which is not empty, and closes what it opens. -/
def inText? (state : State) (mark c : Char) : Option State :=
  if c = mark then
    if state.opened.head? = some mark ∧ state.word ≠ [] then
      some ⟨state.opened.tail, [], some c, false⟩
    else none
  else (nest? state.opened c).map fun opened => ⟨opened, state.word ++ [c], some c, false⟩

/-- A step in code, where a character that is part of no word ends one. -/
def inCode? (state : State) (c : Char) : Option State :=
  if isWordChar c then some ⟨state.opened, state.word ++ [c], some c, false⟩
  else if !isWord state.word then none
  else if c = '#' then some ⟨state.opened, [], state.last, true⟩
  else if isMark c then some ⟨c :: state.opened, [], some c, false⟩
  else (nest? state.opened c).map fun opened =>
    ⟨opened, [], if c = ' ' then state.last else some c, false⟩

def step? (state : State) (c : Char) : Option State :=
  if state.comment then some state
  else
    match state.opened.find? isMark with
    | some mark => state.inText? mark c
    | none => state.inCode? c

def scan? (state : State) (cs : List Char) : Option State := cs.foldlM step? state

/-- The start of a line of code. -/
def start : State := ⟨[], [], none, false⟩

/-- What is open at the end of a line, and the last character of its code.  Quotes are closed on the
line that they are opened on. -/
def atEnd? (state : State) : Option (List Char × Option Char) :=
  if state.opened.any isMark || !isWord state.word then none else some (state.opened, state.last)

end State

/-! ### Lines -/

/-- The three quotes around a docstring, each on a line of its own. -/
def docMark : List Char := ['"', '"', '"']

/-- What is open after a line, and the last character of the code so far, given what they are before
it.  The lines of a docstring hold neither brackets nor quotes. -/
def readLine? (opened : List Char) (last : Option Char) (text : List Char) :
    Option (List Char × Option Char) :=
  if opened = docMark then
    if text = docMark then some ([], some '"')
    else if text.any fun c => isMark c || isOpening c || (opening? c).isSome || c == '\\' then none
    else some (opened, last)
  else if opened = [] ∧ text = docMark then some (docMark, last)
  else (State.scan? ⟨opened, [], last, false⟩ text).bind State.atEnd?

/-- A line of a program with the lines that it is joined of, its column, and the last character of
its code, which a line that is only a comment has not. -/
structure Line where
  column : Nat
  parts : List (List Char)
  last : Option Char

/-- The lines of a program, joined as long as something is open, with the line that is open at the
start and what is open in it.  Blank lines are passed over. -/
def lines? (pending : Option (Line × List Char)) : List (List Char) → Option (List Line)
  | [] => if pending.isNone then some [] else none
  | line :: rest =>
    let text := line.dropWhile (· == ' ')
    if pending.isNone && text.isEmpty then lines? none rest
    else
      let (started, opened) := pending.getD (⟨line.length - text.length, [], none⟩, [])
      match readLine? opened started.last text with
      | none => none
      | some (opened, last) =>
        let current : Line := ⟨started.column, started.parts ++ [text], last⟩
        if opened.isEmpty then (lines? none rest).map (current :: ·)
        else lines? (some (current, opened)) rest

def ofSource? (source : String) : Option (List Line) := lines? none (source.toList.splitOn '\n')

/-- Lines in blocks, given the columns of the blocks around the line before them, of which the first
is its own.  A line stands at one of those columns; so it is not to the right of the line before it,
except that a line that ends in a colon has a line of code after it, four columns to the right. -/
def Nested : List Nat → List Line → Prop
  | _, [] => True
  | columns, line :: rest =>
    line.column ∈ columns ∧
      let outer := columns.dropWhile fun column => decide (column ≠ line.column)
      if line.last = some ':' then
        (∃ next ∈ rest.head?, next.column = line.column + 4 ∧ next.last.isSome) ∧
          Nested ((line.column + 4) :: outer) rest
      else Nested outer rest

/-! ### Scans -/

namespace State

@[simp] theorem scan?_nil (state : State) : state.scan? [] = some state := rfl

@[simp] theorem scan?_cons (state : State) (c : Char) (cs : List Char) :
    state.scan? (c :: cs) = (state.step? c).bind (scan? · cs) := rfl

theorem scan?_append (state : State) (before after : List Char) :
    state.scan? (before ++ after) = (state.scan? before).bind (scan? · after) :=
  List.foldlM_append

/-- A state with more that is open around it, after other code. -/
def within (state : State) (base : List Char) (last : Option Char) : State :=
  ⟨state.opened ++ base, state.word, state.last.or last, state.comment⟩

theorem nest?_append {opened after : List Char} {c : Char} (h : nest? opened c = some after)
    (base : List Char) : nest? (opened ++ base) c = some (after ++ base) := by
  unfold nest? at h ⊢
  by_cases hopening : isOpening c = true
  · rw [if_pos hopening] at h ⊢
    obtain rfl := Option.some.inj h
    rfl
  rw [if_neg hopening] at h ⊢
  cases hbracket : opening? c with
  | none =>
    rw [hbracket] at h
    by_cases hslash : c = '\\'
    · simp [hslash] at h
    · simp_all
  | some bracket =>
    rw [hbracket] at h
    cases opened with
    | nil => simp at h
    | cons first rest => simpa using h

theorem inText?_within {state after : State} {mark c : Char}
    (h : state.inText? mark c = some after) (base : List Char) (last : Option Char) :
    (state.within base last).inText? mark c = some (after.within base last) := by
  unfold inText? at h ⊢
  split at h
  next hmark =>
    split at h
    next hclose =>
      obtain rfl := Option.some.inj h
      have hhead : (state.within base last).opened.head? = some mark := by
        simp [within, hclose.1]
      have htail : (state.within base last).opened.tail = state.opened.tail ++ base := by
        cases hopened : state.opened with
        | nil => simp [hopened] at hclose
        | cons first rest => simp [within, hopened]
      rw [if_pos hmark, if_pos ⟨hhead, hclose.2⟩, htail]
      rfl
    · simp at h
  next hmark =>
    obtain ⟨opened, hnest, rfl⟩ := Option.map_eq_some_iff.mp h
    rw [if_neg hmark, within, nest?_append hnest]
    rfl

theorem inCode?_within {state after : State} {c : Char} (h : state.inCode? c = some after)
    (base : List Char) (last : Option Char) :
    (state.within base last).inCode? c = some (after.within base last) := by
  unfold inCode? at h ⊢
  split_ifs at h with hword hend hcomment hmark hblank
  · obtain rfl := Option.some.inj h
    rw [if_pos hword]
    rfl
  · obtain rfl := Option.some.inj h
    rw [if_neg hword, within, if_neg hend, if_pos hcomment]
    rfl
  · obtain rfl := Option.some.inj h
    rw [if_neg hword, within, if_neg hend, if_neg hcomment, if_pos hmark]
    rfl
  · obtain ⟨opened, hnest, rfl⟩ := Option.map_eq_some_iff.mp h
    rw [if_neg hword, within, if_neg hend, if_neg hcomment, if_neg hmark, nest?_append hnest,
      if_pos hblank]
    rfl
  · obtain ⟨opened, hnest, rfl⟩ := Option.map_eq_some_iff.mp h
    rw [if_neg hword, within, if_neg hend, if_neg hcomment, if_neg hmark, nest?_append hnest,
      if_neg hblank]
    rfl

/-- What is open around a state does not matter to a step, if it is code. -/
theorem step?_within {state after : State} {c : Char} (h : state.step? c = some after)
    {base : List Char} (hbase : base.any isMark = false) (last : Option Char) :
    (state.within base last).step? c = some (after.within base last) := by
  have hfind : (state.within base last).opened.find? isMark = state.opened.find? isMark := by
    have hnone : base.find? isMark = none := by
      rw [List.find?_eq_none]
      simpa using hbase
    rw [within, List.find?_append, hnone, Option.or_none]
  rw [step?] at h ⊢
  rw [hfind]
  cases hcomment : state.comment with
  | true =>
    obtain rfl : state = after := by simpa [hcomment] using h
    simp [within, hcomment]
  | false =>
    rw [hcomment] at h
    have hsame : (state.within base last).comment = false := hcomment
    rw [hsame]
    cases hmark : state.opened.find? isMark with
    | some mark =>
      rw [hmark] at h
      exact inText?_within h base last
    | none =>
      rw [hmark] at h
      exact inCode?_within h base last

theorem scan?_within {state after : State} {cs : List Char} (h : state.scan? cs = some after)
    {base : List Char} (hbase : base.any isMark = false) (last : Option Char) :
    (state.within base last).scan? cs = some (after.within base last) := by
  induction cs generalizing state with
  | nil =>
    obtain rfl : state = after := by simpa using h
    rfl
  | cons c rest ih =>
    rw [scan?_cons] at h ⊢
    obtain ⟨next, hnext, hrest⟩ := Option.bind_eq_some_iff.mp h
    rw [step?_within hnext hbase last]
    exact ih hrest

end State

end LayerStack.Export.Layout
