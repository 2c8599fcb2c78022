import LayerStack.Proofs.Layout.Reader
import LayerStack.Proofs.Outline

/-! The layout of a tree of statements.  Reading the text of a tree whose lines close what they open
gives one line for each of its lines, heads and brackets, and they are nested as in the tree. -/

namespace LayerStack.Export

namespace Layout

/-- The last character of the code on lines that are joined up to the last of them. -/
def joined? (opened : List Char) (last : Option Char) : List (List Char) → Option (Option Char)
  | [] => none
  | text :: rest =>
    match readLine? opened last text with
    | none => none
    | some (opened, last) =>
      if opened.isEmpty then if rest.isEmpty then some last else none
      else joined? opened last rest

/-- The last character of code in texts that make up one line. -/
def joinedTexts? (texts : List String) : Option (Option Char) :=
  joined? [] none (texts.map String.toList)

/-- The line that is made up of texts. -/
def Line.ofTexts (depth : Nat) (texts : List String) : Line :=
  ⟨4 * depth, texts.map String.toList, (joinedTexts? texts).join⟩

/-- The columns of the blocks around a line. -/
def levels : Nat → List Nat
  | 0 => [0]
  | depth + 1 => 4 * (depth + 1) :: levels depth

end Layout

open Layout

namespace Statement

mutual

/-- The lines that are read for a statement. -/
def joinedLines (depth : Nat) : Statement → List Line
  | .blank => []
  | .line text => [.ofTexts depth [text]]
  | .block head body => .ofTexts depth [head] :: joinedLinesAll (depth + 1) body
  | .bracket opening inner closing => [.ofTexts depth (opening :: inner ++ [closing])]

def joinedLinesAll (depth : Nat) : List Statement → List Line
  | [] => []
  | statement :: rest => joinedLines depth statement ++ joinedLinesAll depth rest

end

/-- Texts that make up one line, which does not end in a colon. -/
def ends (texts : List String) : Bool := (joinedTexts? texts).any fun last => last != some ':'

/-- Statements of which the first is code. -/
def startsCode : List Statement → Bool
  | .line text :: _ => (joinedTexts? [text]).join.isSome
  | .block .. :: _ => true
  | .bracket opening inner closing :: _ =>
    (joinedTexts? (opening :: inner ++ [closing])).join.isSome
  | _ => false

mutual

/-- Every line closes what it opens, and those that end in a colon are the heads of the blocks,
which start with code. -/
def laidOut : Statement → Bool
  | .blank => true
  | .line text => ends [text]
  | .block head body => joinedTexts? [head] == some (some ':') && startsCode body && laidOutAll body
  | .bracket opening inner closing => ends (opening :: inner ++ [closing])

def laidOutAll : List Statement → Bool
  | [] => true
  | statement :: rest => laidOut statement && laidOutAll rest

end

mutual

/-- The lines that leave something open, each with those that it is joined with. -/
def brackets : Statement → List (List String)
  | .blank | .line _ => []
  | .block _ body => bracketsAll body
  | .bracket opening inner closing => [opening :: inner ++ [closing]]

def bracketsAll : List Statement → List (List String)
  | [] => []
  | statement :: rest => brackets statement ++ bracketsAll rest

end

/-! ### Lists of statements -/

theorem laidOutAll_eq (program : List Statement) : laidOutAll program = program.all laidOut := by
  induction program with
  | nil => rfl
  | cons statement rest ih => simp [laidOutAll, ih]

theorem bracketsAll_eq (program : List Statement) :
    bracketsAll program = program.flatMap brackets := by
  induction program with
  | nil => rfl
  | cons statement rest ih => simp [bracketsAll, ih]

theorem laidOutAll_append (before after : List Statement) :
    laidOutAll (before ++ after) = (laidOutAll before && laidOutAll after) := by
  simp [laidOutAll_eq]

theorem bracketsAll_append (before after : List Statement) :
    bracketsAll (before ++ after) = bracketsAll before ++ bracketsAll after := by
  simp [bracketsAll_eq]

theorem startsCode_append {before : List Statement} (h : startsCode before = true)
    (after : List Statement) : startsCode (before ++ after) = true := by
  cases before with
  | nil => simp [startsCode] at h
  | cons statement rest => cases statement <;> exact h

/-! ### Reading -/

/-- Texts that are joined to an open line, each at a depth of its own. -/
theorem lines?_pending {texts : List (Nat × String)} (hlines : ∀ text ∈ texts, IsLine text.2)
    {started : Line} {opened : List Char} {last : Option Char}
    (h : joined? opened started.last (texts.map fun text => text.2.toList) = some last)
    (rest : List (List Char)) :
    lines? (some (started, opened))
        (texts.map (fun text => (indented text.1 text.2).toList) ++ rest) =
      (lines? none rest).map
        (⟨started.column, started.parts ++ texts.map fun text => text.2.toList, last⟩ :: ·) := by
  induction texts generalizing started opened with
  | nil => simp [joined?] at h
  | cons text more ih =>
    rw [List.forall_mem_cons] at hlines
    rw [List.map_cons, joined?] at h
    rw [List.map_cons, List.cons_append, lines?, dropWhile_indented hlines.1]
    cases hread : readLine? opened started.last text.2.toList with
    | none => simp [hread] at h
    | some result =>
      obtain ⟨after, lastCode⟩ := result
      simp only [hread] at h
      simp only [Option.isNone_some, Bool.false_and, Bool.false_eq_true, if_false, Option.getD_some,
        hread]
      split at h
      next hempty =>
        split at h
        next hmore =>
          obtain rfl := Option.some.inj h
          obtain rfl : more = [] := by simpa using hmore
          simp [hempty]
        · simp at h
      next hempty =>
        rw [if_neg hempty, ih hlines.2 h]
        simp

/-- Texts that make up one line, the first of them at a depth. -/
theorem lines?_texts (depth : Nat) {text : String} (texts : List (Nat × String))
    (hline : IsLine text) (hlines : ∀ text ∈ texts, IsLine text.2)
    (h : (joinedTexts? (text :: texts.map Prod.snd)).isSome = true) (rest : List (List Char)) :
    lines? none ((indented depth text).toList ::
        (texts.map (fun text => (indented text.1 text.2).toList) ++ rest)) =
      (lines? none rest).map (Line.ofTexts depth (text :: texts.map Prod.snd) :: ·) := by
  obtain ⟨last, hjoined⟩ := Option.isSome_iff_exists.mp h
  have hofTexts : Line.ofTexts depth (text :: texts.map Prod.snd) =
      ⟨4 * depth, text.toList :: texts.map (fun text => text.2.toList), last⟩ := by
    rw [Line.ofTexts, hjoined]
    simp
  rw [joinedTexts?, List.map_cons, List.map_map, joined?] at hjoined
  rw [hofTexts, lines?, dropWhile_indented hline, column_indented]
  cases hread : readLine? [] none text.toList with
  | none => simp [hread] at hjoined
  | some result =>
    obtain ⟨opened, lastCode⟩ := result
    simp only [hread] at hjoined
    simp only [isEmpty_toList hline, Bool.and_false, Bool.false_eq_true, if_false, Option.getD_none,
      hread, List.nil_append]
    split at hjoined
    next hempty =>
      split at hjoined
      next hmore =>
        obtain rfl := Option.some.inj hjoined
        obtain rfl : texts = [] := by simpa using hmore
        simp [hempty]
      · simp at hjoined
    next hempty =>
      rw [if_neg hempty]
      exact lines?_pending hlines hjoined rest

mutual

/-- The lines of a statement are read as its joined lines. -/
theorem lines?_lines (depth : Nat) (rest : List (List Char)) : (statement : Statement) →
    (∀ text ∈ texts statement, IsLine text) → laidOut statement = true →
      lines? none ((lines depth statement).map String.toList ++ rest) =
        (lines? none rest).map (joinedLines depth statement ++ ·)
  | .blank, _, _ => by simp [lines, lines?, joinedLines]
  | .line text, h, hends => by
    have htext : IsLine text := h text (by simp [texts])
    have hsome : (joinedTexts? [text]).isSome = true := by
      rw [laidOut, ends] at hends
      exact Option.isSome_of_any hends
    exact lines?_texts depth [] htext (by simp) hsome rest
  | .block head body, h, hlaid => by
    simp only [texts, List.forall_mem_cons] at h
    simp only [laidOut, Bool.and_eq_true, beq_iff_eq] at hlaid
    obtain ⟨⟨hhead, -⟩, hbody⟩ := hlaid
    have hread := lines?_texts depth [] h.1 (by simp) (by simp [hhead])
      ((linesAll (depth + 1) body).map String.toList ++ rest)
    rw [lines, List.map_cons, List.cons_append, joinedLines]
    rw [List.map_nil, List.nil_append, List.map_nil,
      lines?_linesAll (depth + 1) rest body h.2 hbody, Option.map_map] at hread
    exact hread
  | .bracket opening inner closing, h, hends => by
    simp only [texts, List.forall_mem_append, List.forall_mem_cons, List.not_mem_nil, false_imp_iff,
      implies_true, and_true] at h
    obtain ⟨⟨hopening, hinner⟩, hclosing⟩ := h
    let inside : List (Nat × String) :=
      inner.map (fun text => (depth + 1, text)) ++ [(depth, closing)]
    have hinside : ∀ text ∈ inside, IsLine text.2 := by
      simp only [inside, List.forall_mem_append, List.forall_mem_map, List.forall_mem_cons,
        List.not_mem_nil, false_imp_iff, implies_true, and_true]
      exact ⟨hinner, hclosing⟩
    have htexts : opening :: inside.map Prod.snd = opening :: inner ++ [closing] := by
      simp [inside, Function.comp_def]
    have hsome : (joinedTexts? (opening :: inside.map Prod.snd)).isSome = true := by
      rw [laidOut, ends] at hends
      rw [htexts]
      exact Option.isSome_of_any hends
    have hread := lines?_texts depth inside hopening hinside hsome rest
    rw [htexts] at hread
    simpa [lines, joinedLines, inside, Function.comp_def] using hread

theorem lines?_linesAll (depth : Nat) (rest : List (List Char)) : (program : List Statement) →
    (∀ text ∈ textsAll program, IsLine text) → laidOutAll program = true →
      lines? none ((linesAll depth program).map String.toList ++ rest) =
        (lines? none rest).map (joinedLinesAll depth program ++ ·)
  | [], _, _ => by simp [linesAll, joinedLinesAll]
  | statement :: more, h, hlaid => by
    simp only [textsAll, List.forall_mem_append] at h
    simp only [laidOutAll, Bool.and_eq_true] at hlaid
    have hread := lines?_lines depth ((linesAll depth more).map String.toList ++ rest) statement h.1
      hlaid.1
    rw [lines?_linesAll depth rest more h.2 hlaid.2, Option.map_map] at hread
    rw [linesAll, List.map_append, List.append_assoc, hread, joinedLinesAll]
    simp [Function.comp_def]

end

mutual

/-- Texts that are joined to one line are those of a bracket. -/
theorem exists_brackets (depth : Nat) : (statement : Statement) →
    ∀ joined ∈ joinedLines depth statement, 1 < joined.parts.length →
      ∃ texts ∈ brackets statement, joined.parts = texts.map String.toList
  | .blank, joined, hjoined, _ => by simp [joinedLines] at hjoined
  | .line text, joined, hjoined, hparts => by
    obtain rfl := List.mem_singleton.mp hjoined
    simp [Line.ofTexts] at hparts
  | .block head body, joined, hjoined, hparts => by
    rw [joinedLines, List.mem_cons] at hjoined
    rcases hjoined with rfl | hjoined
    · simp [Line.ofTexts] at hparts
    · exact exists_bracketsAll (depth + 1) body joined hjoined hparts
  | .bracket opening inner closing, joined, hjoined, _ => by
    obtain rfl := List.mem_singleton.mp hjoined
    exact ⟨_, List.mem_singleton_self _, rfl⟩

theorem exists_bracketsAll (depth : Nat) : (program : List Statement) →
    ∀ joined ∈ joinedLinesAll depth program, 1 < joined.parts.length →
      ∃ texts ∈ bracketsAll program, joined.parts = texts.map String.toList
  | [], joined, hjoined, _ => by simp [joinedLinesAll] at hjoined
  | statement :: rest, joined, hjoined, hparts => by
    rw [joinedLinesAll, List.mem_append] at hjoined
    rw [bracketsAll]
    rcases hjoined with hjoined | hjoined
    · obtain ⟨texts, htexts, heq⟩ := exists_brackets depth statement joined hjoined hparts
      exact ⟨texts, List.mem_append_left _ htexts, heq⟩
    · obtain ⟨texts, htexts, heq⟩ := exists_bracketsAll depth rest joined hjoined hparts
      exact ⟨texts, List.mem_append_right _ htexts, heq⟩

end

/-! ### Blocks -/

theorem mem_levels {d e : Nat} (h : d ≤ e) :
    4 * d ∈ levels e ∧ (levels e).dropWhile (fun column => decide (column ≠ 4 * d)) = levels d := by
  induction e with
  | zero =>
    obtain rfl : d = 0 := by omega
    simp [levels]
  | succ e ih =>
    rcases Nat.lt_or_eq_of_le h with hlt | rfl
    · obtain ⟨hmem, hdrop⟩ := ih (by omega)
      have hne : 4 * (e + 1) ≠ 4 * d := by omega
      rw [levels, List.dropWhile_cons_of_pos (by simpa using hne)]
      exact ⟨List.mem_cons_of_mem _ hmem, hdrop⟩
    · simp [levels]

/-- A body that starts with code has a first line of code. -/
theorem exists_head_of_startsCode {body : List Statement} (h : startsCode body = true)
    (hlaid : laidOutAll body = true) (depth : Nat) (rest : List Line) :
    ∃ first ∈ (joinedLinesAll depth body ++ rest).head?,
      first.column = 4 * depth ∧ first.last.isSome = true := by
  cases body with
  | nil => simp [startsCode] at h
  | cons statement more =>
    cases statement with
    | blank => simp [startsCode] at h
    | line text => exact ⟨_, rfl, rfl, h⟩
    | block head inner =>
      simp only [laidOutAll, laidOut, Bool.and_eq_true, beq_iff_eq] at hlaid
      exact ⟨_, rfl, rfl, by simp [Line.ofTexts, hlaid.1.1.1]⟩
    | bracket opening inner closing => exact ⟨_, rfl, rfl, h⟩

/-- A line that does not end in a colon stands between lines of its depth. -/
theorem nested_texts {depth e : Nat} (h : depth ≤ e) {texts : List String}
    (hends : ends texts = true) {rest : List Line} (hrest : Nested (levels depth) rest) :
    Nested (levels e) (Line.ofTexts depth texts :: rest) := by
  obtain ⟨hmem, hdrop⟩ := mem_levels h
  obtain ⟨last, hlast, hcolon⟩ := (Option.any_eq_true _ _).mp hends
  have hne : (Line.ofTexts depth texts).last ≠ some ':' := by
    rw [Line.ofTexts, hlast]
    simpa using hcolon
  refine ⟨hmem, ?_⟩
  rw [if_neg hne]
  exact hdrop ▸ hrest

mutual

/-- The lines of a statement are nested after lines that are as deep or deeper. -/
theorem nested_joinedLines {depth : Nat} {rest : List Line}
    (hrest : ∀ e, depth ≤ e → Nested (levels e) rest) : (statement : Statement) →
      laidOut statement = true →
        ∀ e, depth ≤ e → Nested (levels e) (joinedLines depth statement ++ rest)
  | .blank, _, e, he => hrest e he
  | .line text, hends, e, he => nested_texts he hends (hrest depth (Nat.le_refl depth))
  | .bracket opening inner closing, hends, e, he =>
    nested_texts he hends (hrest depth (Nat.le_refl depth))
  | .block head body, hlaid, e, he => by
    simp only [laidOut, Bool.and_eq_true, beq_iff_eq] at hlaid
    obtain ⟨⟨hhead, hcode⟩, hbody⟩ := hlaid
    obtain ⟨hmem, hdrop⟩ := mem_levels he
    have hlast : (Line.ofTexts depth [head]).last = some ':' := by rw [Line.ofTexts, hhead]; rfl
    obtain ⟨first, hfirst, hcolumn, hsome⟩ := exists_head_of_startsCode hcode hbody (depth + 1) rest
    have hdeeper : ∀ e, depth + 1 ≤ e → Nested (levels e) rest := fun e he => hrest e (by omega)
    have hnested := nested_joinedLinesAll hdeeper body hbody (depth + 1) (Nat.le_refl _)
    refine ⟨hmem, ?_⟩
    rw [if_pos hlast]
    refine ⟨⟨first, hfirst, hcolumn, hsome⟩, ?_⟩
    exact hdrop ▸ hnested

theorem nested_joinedLinesAll {depth : Nat} {rest : List Line}
    (hrest : ∀ e, depth ≤ e → Nested (levels e) rest) : (program : List Statement) →
      laidOutAll program = true →
        ∀ e, depth ≤ e → Nested (levels e) (joinedLinesAll depth program ++ rest)
  | [], _, e, he => hrest e he
  | statement :: more, hlaid, e, he => by
    simp only [laidOutAll, Bool.and_eq_true] at hlaid
    rw [joinedLinesAll, List.append_assoc]
    exact nested_joinedLines (nested_joinedLinesAll hrest more hlaid.2) statement hlaid.1 e he

end

end Statement

end LayerStack.Export
