import LayerStack.Export.Source
import LayerStack.Proofs.Scans
import Mathlib.Algebra.GroupWithZero.Nat

/-! The outline of a text: its lines as a forest, in which a line holds the lines after it that
stand further to the right.  Blank lines do not count.  The text of a program has the outline that
its statements have. -/

namespace LayerStack.Export

/-- A line by its column and its text, with the lines in it. -/
inductive Outline where
  | node (column : Nat) (text : List Char) (inside : List Outline)

namespace Outline

def column : Outline → Nat
  | node column _ _ => column

def text : Outline → List Char
  | node _ text _ => text

/-- A line before the given ones. -/
def addLine (line : List Char) (after : List Outline) : List Outline :=
  let text := line.dropWhile (· == ' ')
  let column := line.length - text.length
  if text.isEmpty then after
  else
    node column text (after.takeWhile fun other => decide (column < other.column)) ::
      after.dropWhile fun other => decide (column < other.column)

def ofLines (lines : List (List Char)) : List Outline := lines.foldr addLine []

def ofText (s : String) : List Outline := ofLines (s.toList.splitOn '\n')

/-- What stands under the heads of a path, each of them the first such line under the one before. -/
def under? : List String → List Outline → Option (List Outline)
  | [], outlines => some outlines
  | head :: path, outlines =>
    match outlines.find? fun outline => decide (outline.text = head.toList) with
    | some (node _ _ inside) => under? path inside
    | none => none

end Outline

/-- The number of lines of a text that ends every line. -/
def lineCount (s : String) : Nat := s.toList.count '\n'

def OneLine (s : String) : Prop := '\n' ∉ s.toList

instance (s : String) : Decidable (OneLine s) := inferInstanceAs (Decidable (_ ∉ _))

/-- A text that makes up a line: it is not empty, starts with no blank and holds no line break. -/
structure IsLine (s : String) : Prop where
  oneLine : OneLine s
  head : s.toList.head?.any (· != ' ') = true

instance (s : String) : Decidable (IsLine s) :=
  decidable_of_iff (OneLine s ∧ s.toList.head?.any (· != ' ') = true)
    ⟨fun h => ⟨h.1, h.2⟩, fun h => ⟨h.oneLine, h.head⟩⟩

@[simp] theorem oneLine_append {s t : String} : OneLine (s ++ t) ↔ OneLine s ∧ OneLine t := by
  simp [OneLine]

theorem oneLine_of_forall {s : String} {p : Char → Bool} (hbreak : p '\n' = false)
    (h : ∀ c ∈ s.toList, p c = true) : OneLine s := not_mem_of_forall h hbreak

theorem oneLine_ofList {cs : List Char} (h : cs.all (· != '\n') = true) :
    OneLine (String.ofList cs) := by
  refine oneLine_of_forall (p := (· != '\n')) rfl ?_
  rw [String.toList_ofList]
  exact List.all_eq_true.mp h

theorem isLine_ofList {cs : List Char} (h : cs.all (· != '\n') = true)
    (hhead : cs.head?.any (· != ' ') = true) : IsLine (String.ofList cs) :=
  ⟨oneLine_ofList h, by rwa [String.toList_ofList]⟩

theorem IsLine.append {s t : String} (hs : IsLine s) (ht : OneLine t) : IsLine (s ++ t) := by
  refine ⟨oneLine_append.mpr ⟨hs.oneLine, ht⟩, ?_⟩
  have hhead := hs.head
  cases hlist : s.toList with
  | nil => simp [hlist] at hhead
  | cons c rest => simpa [hlist] using hhead

namespace Statement

mutual

/-- The texts that a statement is written with. -/
def texts : Statement → List String
  | .blank => []
  | .line text => [text]
  | .block head body => head :: textsAll body
  | .bracket opening inner closing => opening :: inner ++ [closing]

def textsAll : List Statement → List String
  | [] => []
  | statement :: rest => texts statement ++ textsAll rest

end

mutual

/-- The outline of a statement at a depth of nesting. -/
def outline (depth : Nat) : Statement → List Outline
  | .blank => []
  | .line text => [.node (4 * depth) text.toList []]
  | .block head body => [.node (4 * depth) head.toList (outlineAll (depth + 1) body)]
  | .bracket opening inner closing => [
      .node (4 * depth) opening.toList
        (inner.map fun text => .node (4 * (depth + 1)) text.toList []),
      .node (4 * depth) closing.toList []]

def outlineAll (depth : Nat) : List Statement → List Outline
  | [] => []
  | statement :: rest => outline depth statement ++ outlineAll depth rest

end

mutual

def height : Statement → Nat
  | .blank => 1
  | .line _ => 1
  | .block _ body => 1 + heightAll body
  | .bracket _ inner _ => inner.length + 2

def heightAll : List Statement → Nat
  | [] => 0
  | statement :: rest => height statement + heightAll rest

end

end Statement

/-! ### Lists of statements -/

namespace Statement

theorem textsAll_eq (program : List Statement) : textsAll program = program.flatMap texts := by
  induction program with
  | nil => rfl
  | cons statement rest ih => simp [textsAll, ih]

theorem outlineAll_eq (depth : Nat) (program : List Statement) :
    outlineAll depth program = program.flatMap (outline depth) := by
  induction program with
  | nil => rfl
  | cons statement rest ih => simp [outlineAll, ih]

theorem heightAll_eq (program : List Statement) :
    heightAll program = (program.map height).sum := by
  induction program with
  | nil => rfl
  | cons statement rest ih => simp [heightAll, ih]

theorem textsAll_append (before after : List Statement) :
    textsAll (before ++ after) = textsAll before ++ textsAll after := by simp [textsAll_eq]

theorem outlineAll_append (depth : Nat) (before after : List Statement) :
    outlineAll depth (before ++ after) = outlineAll depth before ++ outlineAll depth after := by
  simp [outlineAll_eq]

theorem heightAll_append (before after : List Statement) :
    heightAll (before ++ after) = heightAll before + heightAll after := by simp [heightAll_eq]

theorem isLine_of_mem_textsAll_map {α : Type} {items : List α} {statement : α → Statement}
    (h : ∀ item ∈ items, ∀ text ∈ texts (statement item), IsLine text) :
    ∀ text ∈ textsAll (items.map statement), IsLine text := by
  intro text htext
  rw [textsAll_eq, List.flatMap_map] at htext
  obtain ⟨item, hitem, hmem⟩ := List.mem_flatMap.mp htext
  exact h item hitem text hmem

theorem isLine_heading {displayName : String} (h : IsLine displayName) :
    ∀ text ∈ textsAll (heading displayName), IsLine text := by
  simp only [heading, textsAll, texts, List.cons_append, List.nil_append, List.append_nil,
    List.forall_mem_cons]
  exact ⟨isLine_ofList rfl rfl, h.append (oneLine_ofList rfl), isLine_ofList rfl rfl,
    isLine_ofList rfl rfl, by simp⟩

/-! ### Lines at a depth -/

theorem toList_indented (depth : Nat) (text : String) :
    (indented depth text).toList = List.replicate (4 * depth) ' ' ++ text.toList := by
  simp [indented]

theorem column_indented (depth : Nat) (text : String) :
    (indented depth text).toList.length - text.toList.length = 4 * depth := by
  simp [toList_indented]

/-- The text of a line starts after the blanks before it. -/
theorem dropWhile_indented {text : String} (h : IsLine text) (depth : Nat) :
    (indented depth text).toList.dropWhile (· == ' ') = text.toList := by
  rw [toList_indented, List.dropWhile_append_of_pos (by simp)]
  have hhead := h.head
  cases htext : text.toList with
  | nil => simp [htext] at hhead
  | cons c rest =>
    have hc : (c == ' ') = false := by simpa [htext] using hhead
    rw [List.dropWhile_cons, hc]
    rfl

theorem isEmpty_toList {text : String} (h : IsLine text) : text.toList.isEmpty = false := by
  have hhead := h.head
  cases htext : text.toList with
  | nil => simp [htext] at hhead
  | cons c rest => rfl

end Statement

/-! ### Reading a program back -/

namespace Outline

/-- Lines that do not stand to the right of a depth. -/
def StopsAt (depth : Nat) (outlines : List Outline) : Prop :=
  ∀ outline ∈ outlines.head?, outline.column ≤ 4 * depth

def StandAt (depth : Nat) (outlines : List Outline) : Prop :=
  ∀ outline ∈ outlines, outline.column = 4 * depth

theorem addLine_indented {depth : Nat} {text : String} (h : IsLine text)
    {inside after : List Outline} (hinside : StandAt (depth + 1) inside)
    (hafter : StopsAt depth after) :
    addLine (Statement.indented depth text).toList (inside ++ after) =
      node (4 * depth) text.toList inside :: after := by
  have hdeeper : ∀ outline ∈ inside, decide (4 * depth < outline.column) = true := by
    intro outline houtline
    have := hinside outline houtline
    simp only [decide_eq_true_eq]
    omega
  have hstop : after.takeWhile (fun outline => decide (4 * depth < outline.column)) = [] := by
    cases after with
    | nil => rfl
    | cons first more =>
      have := hafter first (by simp)
      simp [this]
  have hkeep : after.dropWhile (fun outline => decide (4 * depth < outline.column)) = after := by
    simpa [hstop] using List.takeWhile_append_dropWhile
      (p := fun outline : Outline => decide (4 * depth < outline.column)) (l := after)
  simp only [addLine, Statement.dropWhile_indented h, Statement.column_indented,
    Statement.isEmpty_toList h, Bool.false_eq_true, if_false,
    List.takeWhile_append_of_pos hdeeper, List.dropWhile_append_of_pos hdeeper, hstop, hkeep,
    List.append_nil]

theorem addLine_indented_leaf {depth : Nat} {text : String} (h : IsLine text)
    {after : List Outline} (hafter : StopsAt depth after) :
    addLine (Statement.indented depth text).toList after =
      node (4 * depth) text.toList [] :: after := by
  have hinside : StandAt (depth + 1) [] := by simp [StandAt]
  simpa using addLine_indented h hinside hafter

@[simp] theorem addLine_nil (after : List Outline) : addLine [] after = after := rfl

theorem StandAt.append_stopsAt {depth : Nat} {before after : List Outline}
    (hbefore : StandAt depth before) (hafter : StopsAt depth after) :
    StopsAt depth (before ++ after) := by
  cases before with
  | nil => exact hafter
  | cons first rest =>
    intro outline houtline
    obtain rfl : first = outline := by simpa using houtline
    exact Nat.le_of_eq (hbefore first List.mem_cons_self)

theorem StopsAt.deeper {depth : Nat} {outlines : List Outline} (h : StopsAt depth outlines) :
    StopsAt (depth + 1) outlines := fun outline houtline =>
  Nat.le_trans (h outline houtline) (by omega)

end Outline

namespace Statement

open Outline (StopsAt StandAt addLine addLine_indented addLine_indented_leaf)

theorem standAt_outline (depth : Nat) (statement : Statement) :
    StandAt depth (outline depth statement) := by
  cases statement <;> simp [StandAt, outline, Outline.column]

theorem standAt_outlineAll (depth : Nat) (program : List Statement) :
    StandAt depth (outlineAll depth program) := by
  intro outline houtline
  rw [outlineAll_eq] at houtline
  obtain ⟨statement, -, hmem⟩ := List.mem_flatMap.mp houtline
  exact standAt_outline depth statement outline hmem

theorem foldr_addLine_inner {depth : Nat} {inner : List String} (h : ∀ text ∈ inner, IsLine text)
    {after : List Outline} (hafter : StopsAt depth after) :
    (inner.map fun text => (indented depth text).toList).foldr addLine after =
      inner.map (fun text => .node (4 * depth) text.toList []) ++ after := by
  induction inner with
  | nil => rfl
  | cons text rest ih =>
    rw [List.forall_mem_cons] at h
    have hstand : StandAt depth (rest.map fun text => .node (4 * depth) text.toList []) := by
      simp [StandAt, Outline.column]
    rw [List.map_cons, List.foldr_cons, ih h.2]
    exact addLine_indented_leaf h.1 (hstand.append_stopsAt hafter)

mutual

/-- The lines of a statement, before lines that do not stand to their right, add its outline. -/
theorem foldr_addLine_lines (depth : Nat) {after : List Outline} (hafter : StopsAt depth after) :
    (statement : Statement) → (∀ text ∈ texts statement, IsLine text) →
      ((lines depth statement).map String.toList).foldr addLine after =
        outline depth statement ++ after
  | .blank, _ => rfl
  | .line text, h => by
    have htext : IsLine text := h text (by simp [texts])
    simpa [lines, outline] using addLine_indented_leaf htext hafter
  | .block head body, h => by
    simp only [texts, List.forall_mem_cons] at h
    have hbody := foldr_addLine_linesAll (depth + 1) hafter.deeper body h.2
    rw [lines, List.map_cons, List.foldr_cons, hbody]
    exact addLine_indented h.1 (standAt_outlineAll _ _) hafter
  | .bracket opening inner closing, h => by
    simp only [texts, List.forall_mem_append, List.forall_mem_cons, List.not_mem_nil, false_imp_iff,
      implies_true, and_true] at h
    obtain ⟨⟨hopening, hinner⟩, hclosing⟩ := h
    -- From the last line up: each line finds the outline of the lines below it.
    have hlast := addLine_indented_leaf hclosing hafter
    have hstop : StopsAt depth (.node (4 * depth) closing.toList [] :: after) := by
      simp [StopsAt, Outline.column]
    have hmiddle := foldr_addLine_inner hinner hstop.deeper
    have hstand : StandAt (depth + 1)
        (inner.map fun text => .node (4 * (depth + 1)) text.toList []) := by
      simp [StandAt, Outline.column]
    have hfirst := addLine_indented hopening hstand hstop
    simp only [lines, outline, List.map_cons, List.map_append, List.map_nil, List.map_map,
      Function.comp_def, List.cons_append, List.foldr_cons, List.foldr_append, List.foldr_nil,
      hlast, hmiddle, hfirst, List.nil_append]

theorem foldr_addLine_linesAll (depth : Nat) {after : List Outline}
    (hafter : StopsAt depth after) :
    (program : List Statement) → (∀ text ∈ textsAll program, IsLine text) →
      ((linesAll depth program).map String.toList).foldr addLine after =
        outlineAll depth program ++ after
  | [], _ => rfl
  | statement :: rest, h => by
    simp only [textsAll, List.forall_mem_append] at h
    have hrest := foldr_addLine_linesAll depth hafter rest h.2
    have hstop := (standAt_outlineAll depth rest).append_stopsAt hafter
    rw [linesAll, List.map_append, List.foldr_append, hrest,
      foldr_addLine_lines depth hstop statement h.1, outlineAll, List.append_assoc]

end

/-! ### The text of a program -/

theorem oneLine_indented {depth : Nat} {text : String} (h : IsLine text) :
    OneLine (indented depth text) := by
  refine oneLine_append.mpr ⟨?_, h.oneLine⟩
  simp [OneLine]

mutual

theorem oneLine_lines (depth : Nat) : (statement : Statement) →
    (∀ text ∈ texts statement, IsLine text) → ∀ line ∈ lines depth statement, OneLine line
  | .blank, _ => by simp [lines, OneLine]
  | .line text, h => by
    simpa [lines] using oneLine_indented (h text (by simp [texts]))
  | .block head body, h => by
    simp only [texts, List.forall_mem_cons] at h
    rw [lines, List.forall_mem_cons]
    exact ⟨oneLine_indented h.1, oneLine_linesAll (depth + 1) body h.2⟩
  | .bracket opening inner closing, h => by
    intro line hline
    have hmem : ∃ text ∈ texts (.bracket opening inner closing), ∃ d, line = indented d text := by
      simp only [lines, texts, List.mem_append, List.mem_cons, List.mem_map, List.not_mem_nil,
        or_false] at hline ⊢
      rcases hline with (rfl | ⟨text, htext, rfl⟩) | rfl
      · exact ⟨opening, .inl (.inl rfl), depth, rfl⟩
      · exact ⟨text, .inl (.inr htext), depth + 1, rfl⟩
      · exact ⟨closing, .inr rfl, depth, rfl⟩
    obtain ⟨text, htext, d, rfl⟩ := hmem
    exact oneLine_indented (h text htext)

theorem oneLine_linesAll (depth : Nat) : (program : List Statement) →
    (∀ text ∈ textsAll program, IsLine text) → ∀ line ∈ linesAll depth program, OneLine line
  | [], _ => by simp [linesAll]
  | statement :: rest, h => by
    simp only [textsAll, List.forall_mem_append] at h
    rw [linesAll, List.forall_mem_append]
    exact ⟨oneLine_lines depth statement h.1, oneLine_linesAll depth rest h.2⟩

end

theorem intercalate_append_nil {c : Char} {lines : List (List Char)} (hne : lines ≠ []) :
    [c].intercalate (lines ++ [[]]) = [c].intercalate lines ++ [c] := by
  induction lines with
  | nil => contradiction
  | cons line rest ih =>
    cases rest with
    | nil => simp [List.intercalate_cons_cons]
    | cons next rest =>
      rw [List.cons_append, List.cons_append, List.intercalate_cons_cons,
        List.intercalate_cons_cons, ← List.cons_append, ih (by simp)]
      simp

theorem count_intercalate {c : Char} {lines : List (List Char)} (h : ∀ line ∈ lines, c ∉ line) :
    ([c].intercalate (lines ++ [[]])).count c = lines.length := by
  induction lines with
  | nil => simp
  | cons line rest ih =>
    rw [List.forall_mem_cons] at h
    have hne : rest ++ [[]] ≠ [] := by simp
    rw [List.cons_append, List.intercalate_cons_of_ne_nil hne, List.count_append,
      List.count_append, ih h.2, List.count_eq_zero.mpr h.1]
    simp [Nat.add_comm]

theorem toList_programText {program : List Statement} (hne : program ≠ []) :
    (programText program).toList =
      ['\n'].intercalate ((linesAll 0 program).map String.toList ++ [[]]) := by
  have hlines : linesAll 0 program ≠ [] := by
    cases program with
    | nil => contradiction
    | cons statement rest => cases statement <;> simp [linesAll, lines]
  rw [intercalate_append_nil (by simpa using hlines)]
  simp [programText, String.toList_intercalate]

theorem oneLine_programLines {program : List Statement}
    (h : ∀ text ∈ textsAll program, IsLine text) :
    ∀ line ∈ (linesAll 0 program).map String.toList, '\n' ∉ line := by
  intro line hline
  obtain ⟨text, htext, rfl⟩ := List.mem_map.mp hline
  exact oneLine_linesAll 0 program h text htext

/-- Reading the text of a program gives the outline of its statements. -/
theorem ofText_programText {program : List Statement} (hne : program ≠ [])
    (h : ∀ text ∈ textsAll program, IsLine text) :
    Outline.ofText (programText program) = outlineAll 0 program := by
  have hone : ∀ line ∈ (linesAll 0 program).map String.toList ++ [[]], '\n' ∉ line := by
    rw [List.forall_mem_append]
    exact ⟨oneLine_programLines h, by simp⟩
  have hstop : StopsAt 0 [] := by simp [StopsAt]
  have hread := foldr_addLine_linesAll 0 hstop program h
  -- What follows the last line break is an empty line, which the reader passes over.
  rw [Outline.ofText, toList_programText hne, List.splitOn_intercalate _ hone (by simp),
    Outline.ofLines, List.foldr_append]
  simpa using hread

mutual

theorem length_lines (depth : Nat) : (statement : Statement) →
    (lines depth statement).length = height statement
  | .blank => rfl
  | .line _ => rfl
  | .block _ body => by
    rw [lines, List.length_cons, length_linesAll (depth + 1) body, height, Nat.add_comm]
  | .bracket _ inner _ => by simp [lines, height]

theorem length_linesAll (depth : Nat) : (program : List Statement) →
    (linesAll depth program).length = heightAll program
  | [] => rfl
  | statement :: rest => by
    rw [linesAll, List.length_append, length_lines depth statement, length_linesAll depth rest,
      heightAll]

end

theorem lineCount_programText {program : List Statement} (hne : program ≠ [])
    (h : ∀ text ∈ textsAll program, IsLine text) :
    lineCount (programText program) = heightAll program := by
  rw [lineCount, toList_programText hne, count_intercalate (oneLine_programLines h),
    List.length_map, length_linesAll]

end Statement

end LayerStack.Export
