import LayerStack.Proofs.Calls
import LayerStack.Proofs.Layout.Reader

/-! The pieces that lines of code are made of: words, texts in quotes, and calls with their
arguments.  Each closes what it opens, so that it can stand inside anything else. -/

namespace LayerStack.Export.Layout

open State (start)

/-- A piece of code: it closes what it opens, and what it ends with is a word. -/
def Piece (cs : List Char) : Prop :=
  (start.scan? cs).any (fun state =>
    state.opened.isEmpty && isWord state.word && !state.comment) = true

/-- A piece of code that does not end in a word. -/
def Clean (cs : List Char) : Prop :=
  (start.scan? cs).any (fun state =>
    state.opened.isEmpty && state.word.isEmpty && !state.comment) = true

/-- A piece of code that ends in a parenthesis. -/
def Closing (cs : List Char) : Prop := start.scan? cs = some ⟨[], [], some ')', false⟩

instance (cs : List Char) : Decidable (Piece cs) := inferInstanceAs (Decidable (_ = true))

instance (cs : List Char) : Decidable (Clean cs) := inferInstanceAs (Decidable (_ = true))

instance (cs : List Char) : Decidable (Closing cs) := inferInstanceAs (Decidable (_ = _))

theorem piece_iff {cs : List Char} : Piece cs ↔ ∃ word last,
    start.scan? cs = some ⟨[], word, last, false⟩ ∧ isWord word = true := by
  rw [Piece, Option.any_eq_true]
  constructor
  · rintro ⟨⟨opened, word, last, comment⟩, hscan, hstate⟩
    simp only [Bool.and_eq_true, List.isEmpty_iff, Bool.not_eq_true'] at hstate
    obtain ⟨⟨rfl, hword⟩, rfl⟩ := hstate
    exact ⟨word, last, hscan, hword⟩
  · rintro ⟨word, last, hscan, hword⟩
    exact ⟨_, hscan, by simp [hword]⟩

theorem clean_iff {cs : List Char} :
    Clean cs ↔ ∃ last, start.scan? cs = some ⟨[], [], last, false⟩ := by
  rw [Clean, Option.any_eq_true]
  constructor
  · rintro ⟨⟨opened, word, last, comment⟩, hscan, hstate⟩
    simp only [Bool.and_eq_true, List.isEmpty_iff, Bool.not_eq_true'] at hstate
    obtain ⟨⟨rfl, rfl⟩, rfl⟩ := hstate
    exact ⟨last, hscan⟩
  · rintro ⟨last, hscan⟩
    exact ⟨_, hscan, rfl⟩

theorem Closing.clean {cs : List Char} (h : Closing cs) : Clean cs := clean_iff.mpr ⟨_, h⟩

theorem Clean.piece {cs : List Char} (h : Clean cs) : Piece cs := by
  obtain ⟨last, hscan⟩ := clean_iff.mp h
  exact piece_iff.mpr ⟨[], last, hscan, rfl⟩

/-! ### Pieces after each other -/

/-- A character that is part of no word. -/
def Separates (cs : List Char) : Prop := cs.head?.any (fun c => !isWordChar c) = true

instance (cs : List Char) : Decidable (Separates cs) := inferInstanceAs (Decidable (_ = true))

theorem Separates.append {cs : List Char} (h : Separates cs) (after : List Char) :
    Separates (cs ++ after) := by
  cases cs with
  | nil => simp [Separates] at h
  | cons c rest => exact h

/-- Code goes on within what is open as it does at the start of a line. -/
theorem scan?_open {cs opened : List Char} (hcode : opened.any isMark = false) {after : State}
    (h : start.scan? cs = some after) (last : Option Char) :
    State.scan? ⟨opened, [], last, false⟩ cs = some (after.within opened last) :=
  State.scan?_within h hcode last

/-- A word does not matter once it has ended. -/
theorem scan?_word {cs opened word : List Char} (hcode : opened.any isMark = false)
    (hword : isWord word = true) (hcs : Separates cs) (last : Option Char) :
    State.scan? ⟨opened, word, last, false⟩ cs = State.scan? ⟨opened, [], last, false⟩ cs := by
  cases cs with
  | nil => simp [Separates] at hcs
  | cons c rest =>
    have hc : isWordChar c = false := by simpa [Separates] using hcs
    have hnone : opened.find? isMark = none := by
      rw [List.find?_eq_none]
      simpa using hcode
    have hempty : isWord [] = true := rfl
    simp [State.step?, State.inCode?, hnone, hc, hword, hempty]

section

variable {a b : List Char}

theorem scan?_after_piece (ha : Piece a) (hb : Separates b) {after : State}
    (h : start.scan? b = some after) :
    ∃ last, start.scan? (a ++ b) = some (after.within [] last) := by
  obtain ⟨word, last, hscan, hword⟩ := piece_iff.mp ha
  refine ⟨last, ?_⟩
  rw [State.scan?_append, hscan, Option.bind_some, scan?_word rfl hword hb]
  exact scan?_open rfl h last

theorem scan?_after_clean (ha : Clean a) {after : State} (h : start.scan? b = some after) :
    ∃ last, start.scan? (a ++ b) = some (after.within [] last) := by
  obtain ⟨last, hscan⟩ := clean_iff.mp ha
  refine ⟨last, ?_⟩
  rw [State.scan?_append, hscan, Option.bind_some]
  exact scan?_open rfl h last

theorem Piece.append (ha : Piece a) (hsep : Separates b) (hb : Piece b) : Piece (a ++ b) := by
  obtain ⟨word, last, hscan, hword⟩ := piece_iff.mp hb
  obtain ⟨before, h⟩ := scan?_after_piece ha hsep hscan
  exact piece_iff.mpr ⟨word, _, h, hword⟩

theorem Piece.append_closing (ha : Piece a) (hsep : Separates b) (hb : Closing b) :
    Closing (a ++ b) := by
  obtain ⟨before, h⟩ := scan?_after_piece ha hsep hb
  exact h

theorem Clean.append_piece (ha : Clean a) (hb : Piece b) : Piece (a ++ b) := by
  obtain ⟨word, last, hscan, hword⟩ := piece_iff.mp hb
  obtain ⟨before, h⟩ := scan?_after_clean ha hscan
  exact piece_iff.mpr ⟨word, _, h, hword⟩

theorem Clean.append_closing (ha : Clean a) (hb : Closing b) : Closing (a ++ b) := by
  obtain ⟨before, h⟩ := scan?_after_clean ha hb
  exact h

end

/-- A piece within what the code before it leaves open. -/
theorem scan?_inside {before cs after opened : List Char} {last : Option Char} {state : State}
    (hcode : opened.any isMark = false)
    (hbefore : start.scan? before = some ⟨opened, [], last, false⟩) (h : Piece cs)
    (hsep : Separates after)
    (hafter : ∀ last, State.scan? ⟨opened, [], last, false⟩ after = some state) :
    start.scan? (before ++ cs ++ after) = some state := by
  obtain ⟨word, lastCode, hscan, hword⟩ := piece_iff.mp h
  have hinside : State.scan? ⟨opened, [], last, false⟩ cs =
      some ⟨opened, word, lastCode.or last, false⟩ := scan?_open hcode hscan last
  rw [State.scan?_append, State.scan?_append, hbefore, Option.bind_some, hinside, Option.bind_some,
    scan?_word hcode hword hsep]
  exact hafter _

/-- A piece in parentheses. -/
theorem Piece.enclosed {inner : List Char} (h : Piece inner) :
    Closing ('(' :: (inner ++ [')'])) := by
  have hbefore : start.scan? ['('] = some ⟨['('], [], some '(', false⟩ := rfl
  exact scan?_inside rfl hbefore h rfl fun _ => rfl

/-! ### Words -/

theorem scan?_wordChars {cs : List Char} (h : ∀ c ∈ cs, isWordChar c = true) (word : List Char)
    (last : Option Char) :
    ∃ after, State.scan? ⟨[], word, last, false⟩ cs = some ⟨[], word ++ cs, after, false⟩ := by
  induction cs generalizing word last with
  | nil => exact ⟨last, by simp⟩
  | cons c rest ih =>
    rw [List.forall_mem_cons] at h
    obtain ⟨after, hafter⟩ := ih h.2 (word ++ [c]) (some c)
    refine ⟨after, ?_⟩
    rw [State.scan?_cons]
    simpa [State.step?, State.inCode?, h.1] using hafter

theorem piece_of_word {word : List Char} (h : ∀ c ∈ word, isWordChar c = true)
    (hword : isWord word = true) : Piece word := by
  obtain ⟨after, hscan⟩ := scan?_wordChars h [] none
  exact piece_iff.mpr ⟨word, after, hscan, hword⟩

theorem piece_of_name {word : List Char} (h : isName word = true) : Piece word := by
  refine piece_of_word (fun c hc => ?_) (by simp [isWord, h])
  simp only [isName, Bool.and_eq_true, List.all_eq_true] at h
  have hc := h.1.1.2 c hc
  simp only [isWordChar, isBareChar, Bool.or_eq_true] at hc ⊢
  tauto

theorem piece_of_numeral {s : String} (hbare : Bare s) (h : isNumeral s.toList = true) :
    Piece s.toList := by
  refine piece_of_word (fun c hc => ?_) (by simp [isWord, h])
  simp [isWordChar, hbare c hc]

theorem isNumeral_int (n : Int) : isNumeral (Number.int n).text.toList = true := by
  rw [isNumeral, Number.ofText?_int]
  rfl

/-- Finite numbers are written in finite decimal numerals. -/
theorem isNumeral_text {x : Number} (h : x.isFinite = true) : isNumeral x.text.toList = true := by
  rw [isNumeral, Number.ofText?_text h]
  cases x with
  | int n => rfl
  | real x =>
    cases x with
    | finite negative m hm => rfl
    | infinite | nan => simp [Number.isFinite, Number.toBinary64?, Binary64.isFinite] at h

theorem piece_int (n : Int) : Piece (Value.int n).text.shown.toList := by
  have htext : (Value.int n).text.shown = (Number.int n).text := by
    simp [Value.int, Value.text, Value.spelling]
  rw [htext]
  exact piece_of_numeral (Number.bare_text _) (isNumeral_int n)

theorem piece_natText (n : Nat) : Piece (Decimal.natText n).toList := by
  have h := piece_int n
  have htext : (Value.int n).text.shown = Decimal.natText n := by
    simp [Value.int, Value.text, Value.spelling, Number.text, Decimal.intText]
  rwa [htext] at h

theorem piece_bool (b : Bool) : Piece (Value.bool b).text.shown.toList := by
  cases b <;> decide

/-- What a field holds is written as a word. -/
theorem piece_of_holds {range : FieldRange} {v : Value} (h : range.Holds v) :
    Piece v.text.shown.toList := by
  cases h with
  | whole => exact piece_int _
  | @real _ _ _ x finite =>
    have htext : (Value.num x).text.shown = x.text := by simp [Value.text, Value.spelling]
    rw [htext]
    exact piece_of_numeral (Number.bare_text _) (isNumeral_text finite)
  | flag => exact piece_bool _

/-! ### Texts in quotes -/

theorem scan?_quoted {cs : List Char} (h : ∀ c ∈ cs, c.isAlphanum = true) (word : List Char)
    (last : Option Char) :
    ∃ after,
      State.scan? ⟨['"'], word, last, false⟩ cs = some ⟨['"'], word ++ cs, after, false⟩ := by
  induction cs generalizing word last with
  | nil => exact ⟨last, by simp⟩
  | cons c rest ih =>
    rw [List.forall_mem_cons] at h
    obtain ⟨after, hafter⟩ := ih h.2 (word ++ [c]) (some c)
    have hne : ∀ d, d.isAlphanum = false → c ≠ d := by
      rintro d hd rfl
      simp [h.1] at hd
    have hnest : nest? ['"'] c = some ['"'] := by
      simp [nest?, isOpening, opening?, hne _ (show '('.isAlphanum = false from rfl),
        hne _ (show ')'.isAlphanum = false from rfl), hne _ (show '['.isAlphanum = false from rfl),
        hne _ (show ']'.isAlphanum = false from rfl),
        hne _ (show '\x7b'.isAlphanum = false from rfl),
        hne _ (show '\x7d'.isAlphanum = false from rfl),
        hne _ (show '\\'.isAlphanum = false from rfl)]
    refine ⟨after, ?_⟩
    rw [State.scan?_cons]
    simpa [State.step?, State.inText?, isMark, hne _ (show '"'.isAlphanum = false from rfl), hnest]
      using hafter

section

variable {name : String} (hname : ∀ c ∈ name.toList, c.isAlphanum = true) (hne : name.toList ≠ [])

include hname

/-- A text in quotes that starts with a name, after the code before it. -/
theorem scan?_text {before after : List Char} {last : Option Char} {state : State}
    (hopen : start.scan? before = some ⟨['"'], [], last, false⟩)
    (hclose : ∀ last, State.scan? ⟨['"'], name.toList, last, false⟩ after = some state) :
    start.scan? (before ++ name.toList ++ after) = some state := by
  obtain ⟨last, hscan⟩ := scan?_quoted hname [] last
  rw [State.scan?_append, State.scan?_append, hopen, Option.bind_some, hscan, Option.bind_some]
  exact hclose last

include hne in
theorem clean_quotedName : Clean (quotedName name).toList := by
  refine clean_iff.mpr ⟨some '"', ?_⟩
  have hclose : ∀ last, State.scan? ⟨['"'], name.toList, last, false⟩ "\"".toList =
      some ⟨[], [], some '"', false⟩ := by
    intro last
    simp [State.step?, State.inText?, isMark, hne]
  have hopen : start.scan? "\"".toList = some ⟨['"'], [], some '"', false⟩ := rfl
  have h := scan?_text hname hopen hclose
  rwa [← String.toList_append, ← String.toList_append] at h

theorem clean_indexedName : Clean (indexedName name "i").toList := by
  refine clean_iff.mpr ⟨some '"', ?_⟩
  have hclose : ∀ last, State.scan? ⟨['"'], name.toList, last, false⟩ "_\x7bi\x7d\"".toList =
      some ⟨[], [], some '"', false⟩ := by
    intro last
    simp [State.step?, State.inText?, isMark, nest?, isOpening, opening?]
  have hopen : start.scan? "f\"".toList = some ⟨['"'], [], some '"', false⟩ := rfl
  have h := scan?_text hname hopen hclose
  have htext : (indexedName name "i").toList =
      "f\"".toList ++ name.toList ++ "_\x7bi\x7d\"".toList := by simp [indexedName]
  rwa [htext]

end

end Layout

open Layout

open Layout.State (start)

/-! ### Calls -/

/-- An argument that is a piece, under a keyword that is a name. -/
structure Arg.IsPiece (arg : Arg) : Prop where
  keyword : ∀ keyword ∈ arg.keyword, isName keyword.toList = true
  value : Piece arg.value.text.toList

theorem Arg.IsPiece.text {arg : Arg} (h : arg.IsPiece) : Piece arg.text.toList := by
  obtain ⟨keyword, value⟩ := arg
  cases keyword with
  | none => exact h.value
  | some keyword =>
    have hkeyword := piece_of_name (h.keyword keyword rfl)
    have hequals : Clean "=".toList := by decide
    have hvalue : Piece ("=".toList ++ value.text.toList) := hequals.append_piece h.value
    show Piece (keyword ++ "=" ++ value.text).toList
    rw [String.toList_append, String.toList_append, List.append_assoc]
    exact hkeyword.append (by simp +decide [Separates]) hvalue

/-- Pieces with commas between them are a piece. -/
theorem Layout.piece_intercalate {parts : List String} (h : ∀ part ∈ parts, Piece part.toList) :
    Piece (String.intercalate ", " parts).toList := by
  induction parts with
  | nil => decide
  | cons first rest ih =>
    rw [List.forall_mem_cons] at h
    cases rest with
    | nil => simpa using h.1
    | cons second rest =>
      have hcomma : Clean ", ".toList := by decide
      rw [String.intercalate_cons_cons, String.toList_append, String.toList_append,
        List.append_assoc]
      exact h.1.append (by simp +decide [Separates]) (hcomma.append_piece (ih h.2))

/-- What is called with arguments that are pieces. -/
theorem Call.closing {call : Call} (hcallee : Piece call.callee.toList)
    (hargs : ∀ arg ∈ call.args, arg.IsPiece) : Closing call.text.toList := by
  have hparts : Piece (String.intercalate ", " (call.args.map Arg.text)).toList := by
    refine piece_intercalate ?_
    simpa using fun arg harg => (hargs arg harg).text
  have htext : call.text.toList = call.callee.toList ++
      ('(' :: ((String.intercalate ", " (call.args.map Arg.text)).toList ++ [')'])) := by
    simp [Call.text]
  rw [htext]
  exact hcallee.append_closing rfl hparts.enclosed

theorem Layout.piece_squareText {side : Value} (h : Piece side.text.shown.toList) :
    Piece (squareText side).toList := by
  have hsides : Piece (String.intercalate ", " [side.text.shown, side.text.shown]).toList :=
    piece_intercalate (by simpa using h)
  have htext : (squareText side).toList = '(' ::
      ((String.intercalate ", " [side.text.shown, side.text.shown]).toList ++ [')']) := by
    simp [squareText]
  rw [htext]
  exact hsides.enclosed.clean.piece

namespace Arg

@[simp] theorem isPiece_positional {v : Value} :
    (positional v).IsPiece ↔ Piece v.text.shown.toList :=
  ⟨fun h => h.value, fun h => ⟨by simp [positional], h⟩⟩

@[simp] theorem isPiece_fixed {text : String} : (fixed text).IsPiece ↔ Piece text.toList :=
  ⟨fun h => h.value, fun h => ⟨by simp [fixed], h⟩⟩

@[simp] theorem isPiece_keyed {keyword : String} {v : Value} :
    (keyed keyword v).IsPiece ↔ isName keyword.toList = true ∧ Piece v.text.shown.toList :=
  ⟨fun h => ⟨h.keyword keyword rfl, h.value⟩, fun h => ⟨by simpa [keyed] using h.1, h.2⟩⟩

@[simp] theorem isPiece_keyedFixed {keyword text : String} :
    (keyedFixed keyword text).IsPiece ↔ isName keyword.toList = true ∧ Piece text.toList :=
  ⟨fun h => ⟨h.keyword keyword rfl, h.value⟩, fun h => ⟨by simpa [keyedFixed] using h.1, h.2⟩⟩

end Arg

@[simp] theorem Layout.piece_ite {c : Prop} [Decidable c] {s t : String} :
    Piece (if c then s else t).toList ↔ if c then Piece s.toList else Piece t.toList := by
  split <;> rfl

theorem Torch.closing_constructor {layer : Layer} (h : layer.Configured) (rank : Option Rank)
    {call : Call} (hcall : constructor layer.kind rank layer.config = .ok call) :
    Closing call.text.toList := by
  obtain ⟨value, hread, hpiece⟩ := h.exists_read_of piece_of_holds
  obtain ⟨id, kind, config⟩ := layer
  cases kind <;>
    simp [Kind.fields, Kind.attentionFields, Kind.recurrentFields, Field.whole, Field.flag,
      Field.rate] at hread hpiece <;>
    simp [constructor, readFlag, Config.readFlag, readSetting, hread, Except.map] at hcall <;>
    subst hcall <;>
    refine Call.closing ?_ ?_ <;>
    simp +decide [hpiece, piece_bool]

theorem Layout.closing_assigned {code : String} (h : Closing code.toList) :
    Closing ("x = " ++ code).toList := by
  have htarget : Clean "x = ".toList := by decide
  rw [String.toList_append]
  exact htarget.append_closing h

/-- What is called is applied to operands. -/
theorem Layout.closing_applied {code operands : String} (h : Closing code.toList)
    (hoperands : Piece operands.toList) : Closing (code ++ ("(" ++ operands ++ ")")).toList := by
  have hend : Closing ('(' :: (operands.toList ++ [')'])) := hoperands.enclosed
  have htext : (code ++ ("(" ++ operands ++ ")")).toList =
      code.toList ++ '(' :: (operands.toList ++ [')']) := by simp
  rw [htext]
  exact h.clean.append_closing hend

theorem Keras.Application.closing_line {application : Application}
    (hcall : Closing application.call.text.toList)
    (hoperands : ∀ operands ∈ application.operands, Piece operands.toList) :
    Closing application.line.toList := by
  obtain ⟨call, operands⟩ := application
  cases operands with
  | none => simpa [line] using closing_assigned hcall
  | some operands =>
    exact closing_applied (closing_assigned hcall) (hoperands operands rfl)

theorem Keras.closing_layer {layer : Layer} (h : layer.Configured) {name : String}
    (hname : Piece name.toList) {application : Application}
    (happlication : Keras.layer layer.kind layer.config name = .ok application) :
    Closing application.line.toList := by
  obtain ⟨value, hread, hpiece⟩ := h.exists_read_of piece_of_holds
  have hwidth := Keras.headWidth_ok h
  obtain ⟨id, kind, config⟩ := layer
  -- Attention alone writes a number that is not in a field but computed from two of them.
  by_cases hkind : kind = .attention
  · subst hkind
    obtain ⟨width, hwidth⟩ := hwidth rfl
    simp [Kind.fields, Kind.attentionFields, Field.whole] at hread hpiece
    simp [Keras.layer, readSetting, hread, hwidth] at happlication
    subst happlication
    refine Application.closing_line (Call.closing ?_ ?_) ?_ <;>
      simp +decide [hpiece, piece_int, hname]
  cases kind <;>
    simp [Kind.fields, Kind.attentionFields, Kind.recurrentFields, Field.whole, Field.flag,
      Field.rate] at hread hpiece hkind <;>
    simp [Keras.layer, readFlag, Config.readFlag, readSetting, hread, Except.map]
      at happlication <;>
    subst happlication <;>
    refine Application.closing_line (Call.closing ?_ ?_) ?_ <;>
    simp +decide [hpiece, piece_bool, hname]

/-- A piece in parentheses that are opened and closed by the text around it. -/
theorem Layout.closing_between {before inner after : String} {last : Option Char}
    (hbefore : start.scan? before.toList = some ⟨['('], [], last, false⟩)
    (hsep : Separates after.toList)
    (hafter : ∀ last, State.scan? ⟨['('], [], last, false⟩ after.toList =
      some ⟨[], [], some ')', false⟩)
    (h : Piece inner.toList) : Closing (before ++ inner ++ after).toList := by
  rw [String.toList_append, String.toList_append]
  exact scan?_inside rfl hbefore h hsep hafter

/-- The shape of an input is a piece. -/
theorem Keras.piece_inputSpec {unit : Option NamedGroup}
    (h : ∀ first ∈ unit, Layer.Configured ⟨default, first.group.kind, first.group.config⟩)
    {input : String} (hinput : inputSpec unit = .ok input) : Piece input.toList := by
  cases unit with
  | none =>
    obtain rfl : "shape=(None,)" = input := by simpa [inputSpec] using hinput
    decide
  | some first =>
    obtain ⟨value, hread, hpiece⟩ := (h first rfl).exists_read_of piece_of_holds
    obtain ⟨⟨kind, config, ids, start⟩, name, rank⟩ := first
    cases kind <;>
      simp [Kind.fields, Kind.attentionFields, Kind.recurrentFields, Field.whole, Field.flag,
        Field.rate] at hread hpiece <;>
      simp [inputSpec, readSetting, hread] at hinput <;>
      subst hinput <;>
      first
        | decide
        | exact (closing_between rfl (by decide) (fun _ => rfl) (by simp [hpiece])).clean.piece

/-- A line of code that closes what it opens and ends in a parenthesis, or in a comment after
one. -/
def Layout.Closes (cs : List Char) : Prop :=
  ∃ comment, start.scan? cs = some ⟨[], [], some ')', comment⟩

theorem Layout.Closing.closes {cs : List Char} (h : Closing cs) : Closes cs := ⟨false, h⟩

theorem Layout.scan?_comment {state : State} (h : state.comment = true) (cs : List Char) :
    state.scan? cs = some state := by
  induction cs with
  | nil => rfl
  | cons c rest ih =>
    have hstep : state.step? c = some state := by rw [State.step?, if_pos h]
    rw [State.scan?_cons, hstep]
    exact ih

theorem Layout.Closing.comment {cs : List Char} (h : Closing cs) (text : String) :
    Closes (cs ++ ("  # " ++ text).toList) := by
  have hopen : State.scan? ⟨[], [], some ')', false⟩ "  # ".toList =
      some ⟨[], [], some ')', true⟩ := rfl
  refine ⟨true, ?_⟩
  rw [State.scan?_append, h, Option.bind_some, String.toList_append, State.scan?_append, hopen]
  exact scan?_comment rfl _

theorem Flax.Application.closes_line {application : Application}
    (hcall : Closing application.call.text.toList)
    (hoperands : ∀ operands ∈ application.operands, Piece operands.toList) :
    Closes application.line.toList := by
  obtain ⟨call, operands, comment⟩ := application
  have hcode : Closing (Flax.Application.line ⟨call, operands, none⟩).toList := by
    cases operands with
    | none => simpa [line] using closing_assigned hcall
    | some operands =>
      simpa [line] using closing_applied (closing_assigned hcall) (hoperands operands rfl)
  cases comment with
  | none => exact hcode.closes
  | some comment => simpa [line] using hcode.comment comment

theorem Flax.closes_layer {layer : Layer} (h : layer.Configured) {name label : String}
    (hname : Piece name.toList) {application : Application}
    (happlication : Flax.layer layer.kind layer.config name label = .ok application) :
    Closes application.line.toList := by
  obtain ⟨value, hread, hpiece⟩ := h.exists_read_of piece_of_holds
  obtain ⟨id, kind, config⟩ := layer
  cases kind <;>
    simp [Kind.fields, Kind.attentionFields, Kind.recurrentFields, Field.whole, Field.flag,
      Field.rate] at hread hpiece <;>
    simp [Flax.layer, readFlag, Config.readFlag, readSetting, hread, Except.map,
      onValue] at happlication <;>
    subst happlication <;>
    refine Application.closes_line (Call.closing ?_ ?_) ?_ <;>
    simp +decide [hpiece, piece_bool, hname, piece_squareText]

end LayerStack.Export
