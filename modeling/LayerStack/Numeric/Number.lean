import LayerStack.Numeric.Decimal

/-! Numbers of two sorts, whole numbers of any size and doubles.  They are compared by exact value,
and `1` and `1.0` stay different numbers that are equal in value. -/

namespace LayerStack

/-- A whole number or a double. -/
inductive Number where
  | int (n : Int)
  | real (x : Binary64)
  deriving DecidableEq

namespace Number

/-- The exact value, unless it is infinite or not a number. -/
def value? : Number → Option Rat
  | .int n => some n
  | .real x => x.toRat?

/-- Equality of value across the two sorts. -/
def same : Number → Number → Bool
  | .real x, .real y => x.same y
  | x, y =>
    match x.value?, y.value? with
    | some p, some q => decide (p = q)
    | _, _ => false

def isZero (x : Number) : Bool := decide (x.value? = some 0)

def atLeast (x : Number) (q : Rat) : Bool :=
  match x with
  | .int n => decide (q ≤ n)
  | .real x => x.atLeast q

def below (x : Number) (q : Rat) : Bool :=
  match x with
  | .int n => decide (n < q)
  | .real x => x.below q

/-- The number as a double, unless it is a whole number too large for one. -/
def toBinary64? : Number → Option Binary64
  | .int n => Binary64.ofInt? n
  | .real x => some x

/-- The product with a positive whole number; whole numbers stay whole. -/
def mulNat (x : Number) (n : Nat) : Number :=
  match x with
  | .int k => .int (k * n)
  | .real x => .real (x.mulNat n)

/-- The largest whole number that is not above a finite number. -/
def floor : Number → Int
  | .int n => n
  | .real x => (x.toRat?.getD 0).floor

/-- Whole numbers in decimal digits, doubles in the fewest digits that read back. -/
def text : Number → String
  | .int n => Decimal.intText n
  | .real x => Decimal.shortestText x

end Number

end LayerStack
