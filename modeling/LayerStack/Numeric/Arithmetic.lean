import LayerStack.Numeric.Number

/-! Arithmetic of doubles and of numbers.  An operation on doubles computes the exact result and
rounds it once; the result of an operation on numbers is whole if both of them are, and otherwise
that of the operation on the doubles nearest to them. -/

namespace LayerStack

namespace Binary64

/-- Whether the sign is negative, as that of a zero may be too. -/
def isNegative : Binary64 → Bool
  | .finite negative _ _ => negative
  | .infinite negative => negative
  | .nan => false

def isZero (x : Binary64) : Bool := decide (x.toRat? = some 0)

/-- Whether `x` is above `q`; not so if it is not a number. -/
def above (x : Binary64) (q : Rat) : Bool :=
  match x with
  | .finite negative m _ => decide (q < if negative then -m else m)
  | .infinite negative => !negative
  | .nan => false

def neg : Binary64 → Binary64
  | .finite negative m h => .finite (!negative) m h
  | .infinite negative => .infinite (!negative)
  | .nan => .nan

/-- The sum; a zero sum is positive unless both terms are negative. -/
def add (x y : Binary64) : Binary64 :=
  match x, y with
  | .nan, _ | _, .nan => .nan
  | .infinite a, .infinite b => if a = b then .infinite a else .nan
  | .infinite a, _ => .infinite a
  | _, .infinite b => .infinite b
  | .finite a m _, .finite b n _ =>
    let sum := (if a then -m else m) + (if b then -n else n)
    if sum = 0 then signedZero (a && b) else ofRat sum

def sub (x y : Binary64) : Binary64 := x.add y.neg

def mul (x y : Binary64) : Binary64 :=
  let negative := x.isNegative != y.isNegative
  match x, y with
  | .nan, _ | _, .nan => .nan
  | .finite _ m _, .finite _ n _ => ofMagnitude negative (m * n)
  | x, y => if x.isZero || y.isZero then .nan else .infinite negative

/-- The quotient; that of a number by zero is infinite. -/
def div (x y : Binary64) : Binary64 :=
  let negative := x.isNegative != y.isNegative
  match x, y with
  | .nan, _ | _, .nan | .infinite _, .infinite _ => .nan
  | .infinite _, .finite .. => .infinite negative
  | .finite .., .infinite _ => signedZero negative
  | .finite _ m _, .finite _ n _ =>
    if n = 0 then if m = 0 then .nan else .infinite negative else ofMagnitude negative (m / n)

/-- What is left of `x` after a whole number of times `y` is taken away, with the sign of `x`. -/
def remainder (x y : Binary64) : Binary64 :=
  match x, y with
  | .finite a m _, .finite _ n _ => if n = 0 then .nan else ofMagnitude a (m - n * (m / n).floor)
  | .finite .., .infinite _ => x
  | _, _ => .nan

/-- The largest whole double that is not above `x`. -/
def floor (x : Binary64) : Binary64 :=
  match x.toRat? with
  | some q => ofRat q.floor
  | none => x

def one : Binary64 := ofRat 1

/-- The whole number of times that `y` goes into `x`, rounded down, for a `y` that is not zero.
The remainder is taken away before the division, so that the quotient is nearly whole; one that the
last rounding left below its whole number is raised to it. -/
def floorQuotient (x y : Binary64) : Binary64 :=
  let rest := x.remainder y
  let quotient := (x.sub rest).div y
  let quotient :=
    if !rest.isZero && y.below 0 != rest.below 0 then quotient.sub one else quotient
  if quotient.isZero then signedZero (x.isNegative != y.isNegative)
  else
    let floored := quotient.floor
    if (quotient.sub floored).above (1 / 2) then floored.add one else floored

/-- The whole number next to a finite double towards zero. -/
def truncate? : Binary64 → Option Int
  | .finite negative m _ => some (if negative then -m.floor else m.floor)
  | _ => none

end Binary64

namespace Number

/-- An operation in whole numbers if both operands are whole, and in doubles otherwise; none if a
whole number is too large for a double. -/
def combine? (whole : Int → Int → Int) (real : Binary64 → Binary64 → Binary64)
    (x y : Number) : Option Number :=
  match x, y with
  | .int m, .int n => some (.int (whole m n))
  | x, y => do
    let a ← x.toBinary64?
    let b ← y.toBinary64?
    return .real (real a b)

def add? (x y : Number) : Option Number := combine? (· + ·) Binary64.add x y

def mul? (x y : Number) : Option Number := combine? (· * ·) Binary64.mul x y

/-- The quotient rounded down, for a divisor that is not zero. -/
def floorQuotient? (x y : Number) : Option Number := combine? Int.fdiv Binary64.floorQuotient x y

end Number

end LayerStack
