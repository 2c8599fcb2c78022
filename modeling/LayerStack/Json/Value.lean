import LayerStack.Entries
import LayerStack.Numeric.Number
import LayerStack.Text.Quoted

/-! JSON values, whose numbers are whole or double and whose objects keep the order of their
members, and the notation in which messages show them.  A whole number may be of any size, but it
has a numeral only up to a number of digits, in a JSON text as in a message. -/

namespace LayerStack

inductive Value where
  | null
  | bool (b : Bool)
  | num (x : Number)
  | str (s : Text)
  | list (items : List Value)
  | obj (members : List (Text × Value))
  deriving Inhabited

/-- The members of an object, by their names. -/
abbrev Members := Entries Text Value

namespace Value

def int (n : Int) : Value := .num (.int n)

def real (x : Binary64) : Value := .num (.real x)

/-- The number that a value counts as; a flag counts as one or zero. -/
def number? : Value → Option Number
  | .num x => some x
  | .bool b => some (.int (if b then 1 else 0))
  | _ => none

/-- The whole number that a value counts as. -/
def whole? (v : Value) : Option Int :=
  match v.number? with
  | some (.int n) => some n
  | _ => none

/-- What a text names in a table; other values name nothing. -/
def named? {α : Type} (find : String → Option α) : Value → Option α
  | .str s => s.string?.bind find
  | _ => none

/-- Whether a value counts as given: nulls, false, zeros and everything empty do not. -/
def isGiven : Value → Bool
  | .null => false
  | .bool b => b
  | .num x => !x.isZero
  | .str s => !s.isEmpty
  | .list items => !items.isEmpty
  | .obj members => !members.isEmpty

mutual

/-- The notation of a value in messages, however many digits its numbers have. -/
def spelling : Value → String
  | .null => "None"
  | .bool true => "True"
  | .bool false => "False"
  | .num x => x.text
  | .str s => Text.quoted s
  | .list items => "[" ++ spelledItems items ++ "]"
  | .obj members => "\x7b" ++ spelledMembers members ++ "\x7d"

def spelledItems : List Value → String
  | [] => ""
  | [v] => spelling v
  | v :: rest => spelling v ++ ", " ++ spelledItems rest

def spelledMembers : List (Text × Value) → String
  | [] => ""
  | [(k, v)] => Text.quoted k ++ ": " ++ spelling v
  | (k, v) :: rest => Text.quoted k ++ ": " ++ spelling v ++ ", " ++ spelledMembers rest

end

/-- The plain text of a value: a text stands for itself, without quotes. -/
def text : Value → Text
  | .str s => s
  | v => v.spelling

mutual

/-- Whether something holds of a value and of all values in it. -/
def all (p : Value → Bool) : Value → Bool
  | .list items => p (.list items) && allItems p items
  | .obj members => p (.obj members) && allMembers p members
  | v => p v

def allItems (p : Value → Bool) : List Value → Bool
  | [] => true
  | v :: rest => all p v && allItems p rest

def allMembers (p : Value → Bool) : List (Text × Value) → Bool
  | [] => true
  | (_, v) :: rest => all p v && allMembers p rest

end

/-- A whole number has a numeral if it does not take too many digits. -/
def hasNumeral : Value → Bool
  | .num (.int n) => decide (n.natAbs < Decimal.numeralBound)
  | _ => true

def hasDistinctKeys : Value → Bool
  | .obj members => decide (members.map (·.1)).Nodup
  | _ => true

/-- Whether the notation of a value can be written: every whole number in it has a numeral. -/
def isWritable (v : Value) : Bool := v.all hasNumeral

/-- Whether a value can be that of a JSON text: every whole number in it has a numeral, and the
members of every object have different names. -/
def isJson (v : Value) : Bool := v.all fun v => v.hasNumeral && v.hasDistinctKeys

/-- The name of the sort of a value in messages. -/
def sortName : Value → String
  | .null => "NoneType"
  | .bool _ => "bool"
  | .num (.int _) => "int"
  | .num (.real _) => "float"
  | .str _ => "str"
  | .list _ => "list"
  | .obj _ => "dict"

mutual

/-- Equality of value: numbers and flags are compared as numbers, and objects regardless of the
order of their members. -/
def same : Value → Value → Bool
  | .null, .null => true
  | .str s, .str t => decide (s = t)
  | .list xs, .list ys => sameItems xs ys
  | .obj ms, .obj ns => decide (ms.length = ns.length) && sameMembers ms ns
  | v, w =>
    match v.number?, w.number? with
    | some x, some y => x.same y
    | _, _ => false

def sameItems : List Value → List Value → Bool
  | [], [] => true
  | v :: vs, w :: ws => same v w && sameItems vs ws
  | _, _ => false

/-- Whether every member has an equal one among others. -/
def sameMembers : List (Text × Value) → Members → Bool
  | [], _ => true
  | (k, v) :: rest, others =>
    (match Entries.get? others k with
      | some w => same v w
      | none => false) && sameMembers rest others

end

mutual

def decEq : (v w : Value) → Decidable (v = w)
  | .null, .null => .isTrue rfl
  | .bool a, .bool b => if h : a = b then .isTrue (by rw [h]) else .isFalse (by simp [h])
  | .num x, .num y => if h : x = y then .isTrue (by rw [h]) else .isFalse (by simp [h])
  | .str s, .str t => if h : s = t then .isTrue (by rw [h]) else .isFalse (by simp [h])
  | .list xs, .list ys =>
    match decEqItems xs ys with
    | .isTrue h => .isTrue (by rw [h])
    | .isFalse h => .isFalse (by simp [h])
  | .obj ms, .obj ns =>
    match decEqMembers ms ns with
    | .isTrue h => .isTrue (by rw [h])
    | .isFalse h => .isFalse (by simp [h])
  | .null, .bool _ | .null, .num _ | .null, .str _ | .null, .list _ | .null, .obj _
  | .bool _, .null | .bool _, .num _ | .bool _, .str _ | .bool _, .list _ | .bool _, .obj _
  | .num _, .null | .num _, .bool _ | .num _, .str _ | .num _, .list _ | .num _, .obj _
  | .str _, .null | .str _, .bool _ | .str _, .num _ | .str _, .list _ | .str _, .obj _
  | .list _, .null | .list _, .bool _ | .list _, .num _ | .list _, .str _ | .list _, .obj _
  | .obj _, .null | .obj _, .bool _ | .obj _, .num _ | .obj _, .str _ | .obj _, .list _ =>
    .isFalse (by simp)

def decEqItems : (vs ws : List Value) → Decidable (vs = ws)
  | [], [] => .isTrue rfl
  | [], _ :: _ | _ :: _, [] => .isFalse (by simp)
  | v :: vs, w :: ws =>
    match decEq v w, decEqItems vs ws with
    | .isTrue h, .isTrue hs => .isTrue (by rw [h, hs])
    | .isFalse h, _ => .isFalse (by simp [h])
    | _, .isFalse hs => .isFalse (by simp [hs])

def decEqMembers : (ms ns : List (Text × Value)) → Decidable (ms = ns)
  | [], [] => .isTrue rfl
  | [], _ :: _ | _ :: _, [] => .isFalse (by simp)
  | (k, v) :: ms, (l, w) :: ns =>
    if hk : k = l then
      match decEq v w, decEqMembers ms ns with
      | .isTrue h, .isTrue hs => .isTrue (by rw [hk, h, hs])
      | .isFalse h, _ => .isFalse (by simp [h])
      | _, .isFalse hs => .isFalse (by simp [hs])
    else .isFalse (by simp [hk])

end

instance : DecidableEq Value := decEq

section All

variable {p q : Value → Bool}

theorem allItems_eq (items : List Value) : allItems p items = items.all (all p) := by
  induction items with
  | nil => rfl
  | cons v rest ih => rw [allItems, List.all_cons, ih]

theorem allMembers_eq (members : List (Text × Value)) :
    allMembers p members = members.all fun member => all p member.2 := by
  induction members with
  | nil => rfl
  | cons member rest ih => rw [allMembers, List.all_cons, ih]

@[simp] theorem all_list (items : List Value) :
    all p (.list items) = (p (.list items) && items.all (all p)) := by
  rw [all, allItems_eq]

@[simp] theorem all_obj (members : List (Text × Value)) :
    all p (.obj members) = (p (.obj members) && members.all fun member => all p member.2) := by
  rw [all, allMembers_eq]

mutual

theorem all_mono (h : ∀ v, p v = true → q v = true) : ∀ {v : Value}, all p v = true → all q v = true
  | .null, hv | .bool _, hv | .num _, hv | .str _, hv => h _ hv
  | .list _, hv => by
    obtain ⟨hself, hitems⟩ := Bool.and_eq_true_iff.mp hv
    exact Bool.and_eq_true_iff.mpr ⟨h _ hself, allItems_mono h hitems⟩
  | .obj _, hv => by
    obtain ⟨hself, hmembers⟩ := Bool.and_eq_true_iff.mp hv
    exact Bool.and_eq_true_iff.mpr ⟨h _ hself, allMembers_mono h hmembers⟩

theorem allItems_mono (h : ∀ v, p v = true → q v = true) :
    ∀ {items : List Value}, allItems p items = true → allItems q items = true
  | [], _ => rfl
  | _ :: _, hitems => by
    obtain ⟨hfirst, hrest⟩ := Bool.and_eq_true_iff.mp hitems
    exact Bool.and_eq_true_iff.mpr ⟨all_mono h hfirst, allItems_mono h hrest⟩

theorem allMembers_mono (h : ∀ v, p v = true → q v = true) :
    ∀ {members : List (Text × Value)}, allMembers p members = true → allMembers q members = true
  | [], _ => rfl
  | (_, _) :: _, hmembers => by
    obtain ⟨hfirst, hrest⟩ := Bool.and_eq_true_iff.mp hmembers
    exact Bool.and_eq_true_iff.mpr ⟨all_mono h hfirst, allMembers_mono h hrest⟩

end

end All

theorem isWritable_int {n : Int} :
    (int n).isWritable = true ↔ n.natAbs < Decimal.numeralBound := by
  simp only [isWritable, int, all, hasNumeral, decide_eq_true_iff]

theorem isWritable_real (x : Binary64) : (num (.real x)).isWritable = true := rfl

theorem isWritable_bool (b : Bool) : (bool b).isWritable = true := rfl

theorem isWritable_list (items : List Value) :
    (list items).isWritable = items.all isWritable := all_list items

theorem isWritable_obj (members : List (Text × Value)) :
    (obj members).isWritable = members.all fun member => member.2.isWritable := all_obj members

theorem isJson_list {items : List Value} :
    (list items).isJson = true ↔ ∀ item ∈ items, item.isJson = true := by
  simp [isJson, hasNumeral, hasDistinctKeys]

theorem isJson_obj {members : Members} :
    (obj members).isJson = true ↔
      members.keys.Nodup ∧ ∀ member ∈ members, member.2.isJson = true := by
  simp [isJson, hasNumeral, hasDistinctKeys, Entries.keys]

theorem isWritable_of_isJson {v : Value} (h : v.isJson = true) : v.isWritable = true :=
  all_mono (fun _ hv => (Bool.and_eq_true_iff.mp hv).1) h

@[simp] theorem named?_ofString {α : Type} (find : String → Option α) (s : String) :
    (str s).named? find = find s := by
  simp [named?]

end Value

end LayerStack
