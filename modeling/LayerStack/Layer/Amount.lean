import LayerStack.Fault
import LayerStack.Machine
import LayerStack.Numeric.Arithmetic
import LayerStack.Position
import LayerStack.Text.Numeral

/-! Amounts: what is computed from the values in a configuration.  Numbers and flags are computed
with; a text or a list may also be repeated and joined to another one; and whatever else stands
where an operand is needed is a fault.  Operands are evaluated from left to right, and the first
fault is that of the whole. -/

namespace LayerStack

/-- A value that is computed, or the fault that was met. -/
abbrev Amount := Except Fault Value

namespace Value

/-- The number that an operation gave. -/
def ofNumber? : Option Number → Amount
  | some x => .ok (.num x)
  | none => .error .wholeTooLarge

/-- The items repeated `n` times; no items stay no items at once. -/
def repeatItems {α : Type} (items : List α) (n : Int) : List α :=
  if items.isEmpty then [] else (List.replicate n.toNat items).flatten

/-- A text or a list repeated. -/
def repeated [Machine] (sequence count : Value) : Amount :=
  match count.whole? with
  | none => .error (.notARepeatCount count)
  | some n =>
    if !isPosition n then .error .repeatCountTooLarge
    else
      match sequence with
      | .str s =>
        let length := n * s.points.length
        if maxPosition < length then .error .textTooLong
        else if Machine.maxLength < length then .error .noRoom
        else .ok (.str ⟨repeatItems s.points n⟩)
      | .list items =>
        if Machine.maxLength < n * items.length then .error .noRoom
        else .ok (.list (repeatItems items n))
      | v => .error (.notOperands "*" v count)

def times [Machine] (a b : Value) : Amount :=
  match a.number?, b.number? with
  | some x, some y => ofNumber? (x.mul? y)
  | _, _ =>
    match a, b with
    | .str _, _ | .list _, _ => repeated a b
    | _, .str _ | _, .list _ => repeated b a
    | _, _ => .error (.notOperands "*" a b)

def plus (a b : Value) : Amount :=
  match a.number?, b.number? with
  | some x, some y => ofNumber? (x.add? y)
  | _, _ =>
    match a, b with
    | .str s, .str t => .ok (.str (s ++ t))
    | .list xs, .list ys => .ok (.list (xs ++ ys))
    | .str _, _ | .list _, _ => .error (.notJoined a b)
    | _, _ => .error (.notOperands "+" a b)

def floorQuotient (a b : Value) : Amount :=
  match a.number?, b.number? with
  | some (.int m), some (.int n) =>
    if n = 0 then .error .divisionByZero else .ok (.int (m.fdiv n))
  | some x, some y =>
    match x.floorQuotient? y with
    | none => .error .wholeTooLarge
    | some quotient => if y.isZero then .error .realDivisionByZero else .ok (.num quotient)
  | _, _ => .error (.notOperands "//" a b)

/-- The number of passes that a value stands for. -/
def passes (v : Value) : Except Fault Int :=
  match v.whole? with
  | some n => .ok n
  | none => .error (.notAPassCount v)

/-- The whole number that a text is the numeral of. -/
def countOfText (text : Text) : Except Fault Int :=
  match Text.Numeral.ofText? text with
  | none => .error (.notANumeral text)
  | some numeral =>
    if Decimal.maxNumeralDigits < numeral.digits.length then
      .error (.numeralTooLong numeral.digits.length)
    else if numeral.rest.isEmpty then .ok numeral.value
    else .error (.notANumeral text)

/-- The count that a value stands for: the whole number next to it towards zero. -/
def count (v : Value) : Except Fault Int :=
  match v.number?, v with
  | some (.int n), _ => .ok n
  | some (.real x), _ =>
    match x.truncate? with
    | some n => .ok n
    | none => .error (if x = .nan then .nanCount else .infiniteCount)
  | none, .str text => countOfText text
  | none, v => .error (.notACount v)

@[simp] theorem number?_int (n : Int) : (int n).number? = some (.int n) := rfl

@[simp] theorem times_int [Machine] (m n : Int) : (int m).times (int n) = .ok (int (m * n)) := rfl

@[simp] theorem plus_int (m n : Int) : (int m).plus (int n) = .ok (int (m + n)) := rfl

theorem floorQuotient_int {n : Int} (m : Int) (h : n ≠ 0) :
    (int m).floorQuotient (int n) = .ok (int (m.fdiv n)) := by
  simp [floorQuotient, h]

@[simp] theorem count_int (n : Int) : (int n).count = .ok n := rfl

end Value

namespace Amount

instance : Coe Value Amount := ⟨.ok⟩

instance : Coe Int Amount := ⟨fun n => .ok (.int n)⟩

instance (n : Nat) : OfNat Amount n := ⟨.ok (.int n)⟩

/-- An operation on the values of two amounts. -/
def combine (operation : Value → Value → Amount) (a b : Amount) : Amount :=
  match a, b with
  | .error fault, _ => .error fault
  | .ok _, .error fault => .error fault
  | .ok v, .ok w => operation v w

instance [Machine] : Mul Amount := ⟨combine Value.times⟩

instance : Add Amount := ⟨combine Value.plus⟩

def floorQuotient (a b : Amount) : Amount := combine Value.floorQuotient a b

def count (a : Amount) : Except Fault Int := a.bind Value.count

@[simp] theorem ok_mul_ok [Machine] (v w : Value) : (.ok v : Amount) * .ok w = v.times w := rfl

@[simp] theorem ok_add_ok (v w : Value) : (.ok v : Amount) + .ok w = v.plus w := rfl

@[simp] theorem floorQuotient_ok (v w : Value) :
    floorQuotient (.ok v) (.ok w) = v.floorQuotient w := rfl

@[simp] theorem count_ok (v : Value) : count (.ok v) = v.count := rfl

@[simp] theorem ofNat_eq (n : Nat) : (OfNat.ofNat n : Amount) = .ok (.int n) := rfl

end Amount

end LayerStack
