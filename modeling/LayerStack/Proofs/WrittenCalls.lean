import LayerStack.Export.Call
import LayerStack.Proofs.Outline
import LayerStack.Proofs.Numerals
import LayerStack.Proofs.Scans
import Mathlib.Data.List.TakeWhile

/-! Calls read back from source: what is called, the arguments with their keywords, and what follows
the closing parenthesis.  A call is read as what it was written from if none of its words holds a
mark that stands between words. -/

namespace LayerStack

namespace Export

/-- An argument as it is written. -/
structure WrittenArg where
  keyword : Option String
  value : String
  deriving DecidableEq

/-- A call as it is written, and what stands after it. -/
structure WrittenCall where
  callee : String
  args : List WrittenArg
  rest : List Char
  deriving DecidableEq

def WrittenArg.ofText (cs : List Char) : WrittenArg :=
  let cs := cs.dropWhile (· == ' ')
  match cs.dropWhile (· != '=') with
  | _ :: value => ⟨some (String.ofList (cs.takeWhile (· != '='))), String.ofList value⟩
  | [] => ⟨none, String.ofList cs⟩

def WrittenArg.listOfText (cs : List Char) : List WrittenArg :=
  if cs.isEmpty then [] else (cs.splitOn ',').map ofText

def WrittenCall.ofText? (cs : List Char) : Option WrittenCall :=
  match cs.dropWhile (· != '(') with
  | [] => none
  | _ :: inside =>
    match inside.dropWhile (· != ')') with
    | [] => none
    | _ :: rest =>
      some ⟨String.ofList (cs.takeWhile (· != '(')),
        WrittenArg.listOfText (inside.takeWhile (· != ')')), rest⟩

/-- A character that is no mark between words. -/
def isWordChar (c : Char) : Bool := !List.contains ['(', ')', ',', '=', ' '] c

/-- A text without marks between words, which is not empty. -/
structure IsWord (s : String) : Prop where
  nonempty : s.toList ≠ []
  chars : ∀ c ∈ s.toList, isWordChar c = true

instance (s : String) : Decidable (IsWord s) :=
  decidable_of_iff (s.toList ≠ [] ∧ s.toList.all isWordChar = true)
    ⟨fun h => ⟨h.1, List.all_eq_true.mp h.2⟩, fun h => ⟨h.nonempty, List.all_eq_true.mpr h.chars⟩⟩

/-- An argument whose keyword and value are words. -/
structure Arg.IsPlain (arg : Arg) : Prop where
  keyword : ∀ keyword ∈ arg.keyword, IsWord keyword
  value : IsWord arg.value.text

def Arg.written (arg : Arg) : WrittenArg := ⟨arg.keyword, arg.value.text⟩

namespace Arg

@[simp] theorem isPlain_positional {v : Value} : (positional v).IsPlain ↔ IsWord v.text.shown :=
  ⟨fun h => h.value, fun h => ⟨by simp [positional], h⟩⟩

@[simp] theorem isPlain_fixed {text : String} : (fixed text).IsPlain ↔ IsWord text :=
  ⟨fun h => h.value, fun h => ⟨by simp [fixed], h⟩⟩

@[simp] theorem isPlain_keyed {keyword : String} {v : Value} :
    (keyed keyword v).IsPlain ↔ IsWord keyword ∧ IsWord v.text.shown :=
  ⟨fun h => ⟨h.keyword keyword rfl, h.value⟩, fun h => ⟨by simpa [keyed] using h.1, h.2⟩⟩

@[simp] theorem isPlain_keyedFixed {keyword text : String} :
    (keyedFixed keyword text).IsPlain ↔ IsWord keyword ∧ IsWord text :=
  ⟨fun h => ⟨h.keyword keyword rfl, h.value⟩, fun h => ⟨by simpa [keyedFixed] using h.1, h.2⟩⟩

@[simp] theorem written_positional (v : Value) : (positional v).written = ⟨none, v.text.shown⟩ :=
  rfl

@[simp] theorem written_fixed (text : String) : (fixed text).written = ⟨none, text⟩ := rfl

@[simp] theorem written_keyed (keyword : String) (v : Value) :
    (keyed keyword v).written = ⟨some keyword, v.text.shown⟩ := rfl

@[simp] theorem written_keyedFixed (keyword text : String) :
    (keyedFixed keyword text).written = ⟨some keyword, text⟩ := rfl

end Arg

theorem IsWord.not_mem {s : String} (h : IsWord s) {c : Char} (hc : isWordChar c = false) :
    c ∉ s.toList := not_mem_of_forall h.chars hc

theorem IsWord.dropWhile_blanks {s : String} (h : IsWord s) (after : List Char) :
    (s.toList ++ after).dropWhile (· == ' ') = s.toList ++ after := by
  cases hs : s.toList with
  | nil => exact absurd hs h.nonempty
  | cons c rest =>
    have hc : c ≠ ' ' := by
      rintro rfl
      exact h.not_mem rfl (hs ▸ List.mem_cons_self)
    simp [hc]

theorem isWordChar_of_isBareChar {c : Char} (h : isBareChar c = true) : isWordChar c = true := by
  rw [isWordChar, Bool.not_eq_true', Bool.eq_false_iff]
  intro hmark
  simp only [List.contains_eq_mem, List.mem_cons, List.not_mem_nil, or_false,
    decide_eq_true_eq] at hmark
  rcases hmark with rfl | rfl | rfl | rfl | rfl <;> simp +decide at h

end Export

theorem Bare.isWord {s : String} (h : Bare s) (hne : s.toList ≠ []) : Export.IsWord s :=
  ⟨hne, fun c hc => Export.isWordChar_of_isBareChar (h c hc)⟩

theorem Value.isWord {v : Value} {x : Number} (h : v.number? = some x)
    (hread : ofSource? v.text.shown.toList = some v) : Export.IsWord v.text.shown := by
  refine (bare_of_number? h).isWord fun hnil => ?_
  have hempty : ofSource? [] = none := by decide
  rw [hnil, hempty] at hread
  contradiction

theorem FieldRange.Holds.ofSource?_shown {range : FieldRange} {v : Value} (h : range.Holds v) :
    Value.ofSource? v.text.shown.toList = some v := by
  cases h with
  | whole => exact Value.ofSource?_int _
  | real finite => exact Value.ofSource?_number finite
  | flag => exact Value.ofSource?_bool _

theorem FieldRange.Holds.isWord {range : FieldRange} {v : Value} (h : range.Holds v) :
    Export.IsWord v.text.shown := by
  obtain ⟨x, hx⟩ := h.number?_isSome
  exact Value.isWord hx h.ofSource?_shown

namespace Export

namespace WrittenArg

theorem ofText_blank (cs : List Char) : ofText (' ' :: cs) = ofText cs := rfl

theorem text_ne_nil {arg : Arg} (h : arg.IsPlain) : arg.text.toList ≠ [] := by
  have hvalue := h.value.nonempty
  rw [Arg.text]
  split <;> simp_all

theorem ofText_text {arg : Arg} (h : arg.IsPlain) : ofText arg.text.toList = arg.written := by
  obtain ⟨keyword, value⟩ := arg
  cases keyword with
  | none =>
    have hvalue := h.value
    have hblanks := hvalue.dropWhile_blanks []
    have hall : value.text.toList.dropWhile (· != '=') = [] :=
      List.dropWhile_eq_nil_iff.mpr (bne_of_not_mem (hvalue.not_mem rfl))
    rw [List.append_nil] at hblanks
    simp [ofText, Arg.text, Arg.written, hblanks, hall]
  | some keyword =>
    have hkeyword := h.keyword keyword rfl
    have hblanks := hkeyword.dropWhile_blanks ('=' :: value.text.toList)
    obtain ⟨htake, hdrop⟩ := takeWhile_cut (c := '=') (hkeyword.not_mem rfl) value.text.toList
    simp [ofText, Arg.text, Arg.written, hblanks, htake, hdrop]

/-- The marks in an argument are those of the keyword. -/
theorem not_mem_text {arg : Arg} (h : arg.IsPlain) {c : Char} (hc : isWordChar c = false)
    (hne : c ≠ '=') : c ∉ arg.text.toList := by
  obtain ⟨keyword, value⟩ := arg
  cases keyword with
  | none => exact h.value.not_mem hc
  | some keyword =>
    simp only [Arg.text, String.toList_append, List.mem_append, not_or]
    exact ⟨⟨(h.keyword keyword rfl).not_mem hc, by simpa using hne⟩, h.value.not_mem hc⟩

theorem toList_intercalate (first : Arg) (rest : List Arg) :
    (String.intercalate ", " ((first :: rest).map Arg.text)).toList =
      [','].intercalate (first.text.toList :: rest.map fun arg => ' ' :: arg.text.toList) := by
  induction rest generalizing first with
  | nil => simp
  | cons second rest ih =>
    have hrest := ih second
    simp only [List.map_cons, String.intercalate_cons_cons, List.intercalate_cons_cons] at hrest ⊢
    rw [String.toList_append, hrest]
    cases rest <;> simp [List.intercalate_cons_cons]

theorem listOfText_texts {args : List Arg} (h : ∀ arg ∈ args, arg.IsPlain) :
    listOfText (String.intercalate ", " (args.map Arg.text)).toList = args.map Arg.written := by
  cases args with
  | nil => rfl
  | cons first rest =>
    rw [List.forall_mem_cons] at h
    have hcomma : ∀ part ∈ first.text.toList :: rest.map (fun arg => ' ' :: arg.text.toList),
        ',' ∉ part := by
      rw [List.forall_mem_cons, List.forall_mem_map]
      refine ⟨not_mem_text h.1 rfl (by decide), fun arg harg => ?_⟩
      simpa using not_mem_text (h.2 arg harg) (c := ',') rfl (by decide)
    have hrest : rest.map (fun arg => ofText (' ' :: arg.text.toList)) = rest.map Arg.written :=
      List.map_congr_left fun arg harg => (ofText_blank _).trans (ofText_text (h.2 arg harg))
    have hne : (String.intercalate ", " ((first :: rest).map Arg.text)).toList.isEmpty = false := by
      have hfirst := text_ne_nil h.1
      rw [toList_intercalate]
      cases rest <;> simp [List.intercalate_cons_cons, hfirst]
    rw [listOfText, hne, if_neg (by simp), toList_intercalate,
      List.splitOn_intercalate _ hcomma (by simp), List.map_cons, List.map_map, ofText_text h.1,
      List.map_cons]
    exact congrArg _ hrest

end WrittenArg

/-- The text of a call with plain arguments reads back as the call. -/
theorem WrittenCall.ofText?_append {call : Call} (hcallee : '(' ∉ call.callee.toList)
    (hargs : ∀ arg ∈ call.args, arg.IsPlain) (rest : List Char) :
    ofText? (call.text.toList ++ rest) =
      some ⟨call.callee, call.args.map Arg.written, rest⟩ := by
  have htext : call.text.toList ++ rest = call.callee.toList ++
      '(' :: ((String.intercalate ", " (call.args.map Arg.text)).toList ++ ')' :: rest) := by
    simp [Call.text]
  have hargs' : ')' ∉ (String.intercalate ", " (call.args.map Arg.text)).toList := by
    refine not_mem_intercalate (by decide) (List.forall_mem_map.mpr fun arg harg => ?_)
    exact WrittenArg.not_mem_text (hargs arg harg) rfl (by decide)
  obtain ⟨hcalls, hinside⟩ := takeWhile_cut hcallee
    ((String.intercalate ", " (call.args.map Arg.text)).toList ++ ')' :: rest)
  obtain ⟨hlist, hrest⟩ := takeWhile_cut hargs' rest
  simp only [ofText?, htext, hcalls, hinside, hlist, hrest, WrittenArg.listOfText_texts hargs,
    String.ofList_toList]

end Export

end LayerStack
