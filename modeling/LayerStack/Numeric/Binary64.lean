import LayerStack.Numeric.Rounding

/-! Double-precision numbers with exact rational values.  A finite one is a sign and a magnitude,
so that both zeros exist; every operation computes exactly and then rounds once, to the nearest
double and to the even significand halfway between two. -/

namespace LayerStack

namespace Binary64

/-- The distance between neighbouring doubles at the magnitude `q`: significands have 53 bits, and
no exponent is below that of the smallest subnormal double. -/
def spacing (q : Rat) : Rat := (2 : Rat) ^ max (floorLog2 q - 52) (-1074)

/-- The multiple of the spacing nearest to the magnitude `q`, halves going to the even one. -/
def nearest (q : Rat) : Rat := roundEven (q / spacing q) * spacing q

/-- The first magnitude that is too large for a finite double. -/
def bound : Rat := (2 : Rat) ^ (1024 : Int)

/-- Whether `m` is the magnitude of a finite double. -/
def IsMagnitude (m : Rat) : Prop := 0 ≤ m ∧ m < bound ∧ nearest m = m

instance (m : Rat) : Decidable (IsMagnitude m) :=
  inferInstanceAs (Decidable (0 ≤ m ∧ m < bound ∧ nearest m = m))

theorem isMagnitude_zero : IsMagnitude 0 := by decide +kernel

end Binary64

/-- A double-precision number; a finite one holds the exact value of its magnitude. -/
inductive Binary64 where
  | finite (negative : Bool) (magnitude : Rat) (isMagnitude : Binary64.IsMagnitude magnitude)
  | infinite (negative : Bool)
  | nan
  deriving DecidableEq

namespace Binary64

def signedZero (negative : Bool) : Binary64 := .finite negative 0 isMagnitude_zero

def zero : Binary64 := signedZero false

/-- The double nearest to the magnitude `q`, with the given sign; infinite if that is out of
bounds. -/
def ofMagnitude (negative : Bool) (q : Rat) : Binary64 :=
  if h : IsMagnitude (nearest q) then .finite negative (nearest q) h else .infinite negative

/-- The double nearest to `q`; zero is the positive one unless a negative `q` vanished. -/
def ofRat (q : Rat) : Binary64 := ofMagnitude (decide (q < 0)) q.abs

def isFinite : Binary64 → Bool
  | .finite .. => true
  | _ => false

/-- The double nearest to a whole number, if it is finite. -/
def ofInt? (n : Int) : Option Binary64 :=
  if (ofRat n).isFinite then some (ofRat n) else none

/-- The double nearest to `n / d`, for a positive `d`, if it is finite. -/
def quotient? (n : Int) (d : Nat) : Option Binary64 :=
  if (ofRat (n / d)).isFinite then some (ofRat (n / d)) else none

def tenth : Binary64 := ofRat (1 / 10)

/-- The exact value of a finite double. -/
def toRat? : Binary64 → Option Rat
  | .finite negative m _ => some (if negative then -m else m)
  | _ => none

/-- Whether `x` is at least `q`; nothing is at least anything if it is not a number. -/
def atLeast (x : Binary64) (q : Rat) : Bool :=
  match x with
  | .finite negative m _ => decide (q ≤ if negative then -m else m)
  | .infinite negative => !negative
  | .nan => false

/-- Whether `x` is below `q`; not so if it is not a number. -/
def below (x : Binary64) (q : Rat) : Bool :=
  match x with
  | .nan => false
  | _ => !x.atLeast q

/-- Equality of numbers: the zeros are equal, and nothing equals what is not a number. -/
def same (x y : Binary64) : Bool :=
  match x, y with
  | .infinite a, .infinite b => a == b
  | _, _ =>
    match x.toRat?, y.toRat? with
    | some p, some q => decide (p = q)
    | _, _ => false

/-- The product of `x` and a positive whole number that is itself a double. -/
def mulNat (x : Binary64) (n : Nat) : Binary64 :=
  match x with
  | .finite negative m _ => ofMagnitude negative (m * n)
  | x => x

/-- The quotient of `x` by a positive whole number that is itself a double. -/
def divNat (x : Binary64) (n : Nat) : Binary64 :=
  match x with
  | .finite negative m _ => ofMagnitude negative (m / n)
  | x => x

/-- The double nearest to `x` rounded to one decimal place. -/
def roundTenth (x : Binary64) : Binary64 :=
  match x with
  | .finite negative m _ => ofMagnitude negative (roundEven (m * 10) / 10)
  | x => x

/-- The double nearest to `digits * 10 ^ exponent`.  Numerals far outside the range of doubles are
settled by their order of magnitude alone. -/
def ofDecimal (negative : Bool) (digits : Nat) (exponent : Int) : Binary64 :=
  let order := digitCount digits + exponent
  if digits = 0 ∨ order < -400 then signedZero negative
  else if 400 < order then .infinite negative
  else ofMagnitude negative (digits * (10 : Rat) ^ exponent)

theorem isSome_toRat? (x : Binary64) : x.toRat?.isSome = x.isFinite := by
  cases x <;> rfl

theorem same_self {x : Binary64} (h : x ≠ .nan) : x.same x = true := by
  cases x with
  | finite negative m hm => simp [same, toRat?]
  | infinite negative => simp [same]
  | nan => exact absurd rfl h

theorem not_same_nan (x : Binary64) : x.same .nan = false := by
  cases x <;> simp [same, toRat?]

theorem ofMagnitude_eq_finite {negative : Bool} {q : Rat} (h : IsMagnitude (nearest q)) :
    ofMagnitude negative q = .finite negative (nearest q) h := by
  simp [ofMagnitude, h]

theorem ofMagnitude_self {negative : Bool} {m : Rat} (h : IsMagnitude m) :
    ofMagnitude negative m = .finite negative m h := by
  have hm : nearest m = m := h.2.2
  simp [ofMagnitude, hm, h]

end Binary64

end LayerStack
