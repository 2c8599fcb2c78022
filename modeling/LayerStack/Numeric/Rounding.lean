/-! Rounding of exact quotients: to the nearest whole number, with halves going to the even
neighbour, and the exponents that place a positive quotient between two powers of two or of ten. -/

namespace LayerStack

/-- The whole number nearest to `q`; halfway between two of them, the even one. -/
def roundEven (q : Rat) : Int :=
  let below := q.floor
  let rest := q - below
  if rest < 1 / 2 then below
  else if 1 / 2 < rest then below + 1
  else if below % 2 = 0 then below
  else below + 1

/-- The exponent `k` with `2 ^ k ≤ q < 2 ^ (k + 1)`, for a positive `q`. -/
def floorLog2 (q : Rat) : Int :=
  let k : Int := q.num.natAbs.log2 - q.den.log2
  if (2 : Rat) ^ k ≤ q then k else k - 1

/-- How many decimal digits `n` has; zero has one. -/
def digitCount (n : Nat) : Nat := (Nat.toDigits 10 n).length

/-- The exponent `k` with `10 ^ k ≤ q < 10 ^ (k + 1)`, for a positive `q`. -/
def floorLog10 (q : Rat) : Int :=
  let k : Int := digitCount q.num.natAbs - digitCount q.den
  if (10 : Rat) ^ k ≤ q then k else k - 1

end LayerStack
