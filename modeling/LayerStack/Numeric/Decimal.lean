import LayerStack.Numeric.Binary64

/-! Decimal text of numbers: whole numbers with and without thousands marks, doubles with a fixed
number of places, and doubles in the fewest digits that read back as the same double. -/

namespace LayerStack

namespace Decimal

/-- The most digits that the numeral of a whole number may have, to be read or to be written. -/
def maxNumeralDigits : Nat := 4300

/-- The least whole number that has no numeral. -/
def numeralBound : Nat := Nat.pow 10 maxNumeralDigits

def natOfDigits (digits : List Nat) : Nat := digits.foldl (fun n d => 10 * n + d) 0

def natText (n : Nat) : String := String.ofList (Nat.toDigits 10 n)

theorem isDigit_of_mem_toDigits {n : Nat} : ∀ c ∈ Nat.toDigits 10 n, c.isDigit = true :=
  fun _ hc => Nat.isDigit_of_mem_toDigits (by decide) (by decide) hc

def intText (n : Int) : String :=
  if n < 0 then "-" ++ natText n.natAbs else natText n.natAbs

/-- A mark before every third digit from the end; `ds` is in reverse. -/
def markThousands : List Char → List Char
  | a :: b :: c :: d :: rest => a :: b :: c :: ',' :: markThousands (d :: rest)
  | ds => ds

/-- The decimal numeral of a whole number with a comma between groups of three digits. -/
def groupedText (n : Int) : String :=
  let marked := String.ofList (markThousands (Nat.toDigits 10 n.natAbs).reverse).reverse
  if n < 0 then "-" ++ marked else marked

/-- `cs` with zeros before it to make up `width` characters. -/
def padZeros (width : Nat) (cs : List Char) : List Char :=
  List.replicate (width - cs.length) '0' ++ cs

/-- A count of hundredths as a numeral with two places. -/
def hundredthsText (n : Nat) : String :=
  natText (n / 100) ++ "." ++ String.ofList (padZeros 2 (Nat.toDigits 10 (n % 100)))

/-- A double with two decimal places: its exact value is rounded, halves to the even neighbour. -/
def fixedText : Binary64 → String
  | .finite negative m _ =>
    (if negative then "-" else "") ++ hundredthsText (roundEven (m * 100)).toNat
  | .infinite negative => if negative then "-inf" else "inf"
  | .nan => "nan"

/-- A whole number times a power of ten. -/
structure Scaled where
  digits : Nat
  exponent : Int
  deriving DecidableEq

def Scaled.toRat (s : Scaled) : Rat := s.digits * (10 : Rat) ^ s.exponent

/-- The neighbours of the magnitude `m` among the decimals with `n` significant digits: of those
that read back as `m` the nearer one, and halfway between two the even one. -/
def shortest? (m : Rat) (n : Nat) : Option Scaled :=
  let exponent := floorLog10 m - n + 1
  let position := m / (10 : Rat) ^ exponent
  let lower : Scaled := ⟨position.floor.toNat, exponent⟩
  let upper : Scaled := ⟨position.floor.toNat + 1, exponent⟩
  match decide (Binary64.nearest lower.toRat = m), decide (Binary64.nearest upper.toRat = m) with
  | true, true => some (if roundEven position = position.floor then lower else upper)
  | true, false => some lower
  | false, true => some upper
  | false, false => none

/-- No double needs more digits than this to be told from its neighbours. -/
def maxDigits : Nat := 17

/-- The decimal with the fewest digits that reads back as the magnitude `m`. -/
def shortest (m : Rat) : Scaled :=
  let counts := (List.range maxDigits).map (· + 1)
  (counts.findSome? (shortest? m)).getD ⟨0, 0⟩

/-- The digits of a numeral without the zeros at its end. -/
def significant (ds : List Char) : List Char := (ds.reverse.dropWhile (· == '0')).reverse

/-- The sign and the digits of an exponent, of which there are at least two. -/
def exponentText (e : Int) : String :=
  (if e < 0 then "-" else "+") ++ String.ofList (padZeros 2 (Nat.toDigits 10 e.natAbs))

/-- A decimal with the point after the first digit and an exponent. -/
def scientificText (ds : List Char) (e : Int) : String :=
  match ds with
  | d :: [] => String.ofList [d] ++ "e" ++ exponentText e
  | d :: rest => String.ofList (d :: '.' :: rest) ++ "e" ++ exponentText e
  | [] => ""

/-- A decimal without an exponent; `e` is the exponent of its first digit, and at least one place
is written. -/
def positionalText (ds : List Char) (e : Int) : String :=
  if e < 0 then
    String.ofList ('0' :: '.' :: (List.replicate (e.natAbs - 1) '0' ++ ds))
  else
    let n := e.toNat + 1
    let whole := ds.take n ++ List.replicate (n - ds.length) '0'
    let places := if ds.length ≤ n then ['0'] else ds.drop n
    String.ofList (whole ++ '.' :: places)

/-- A magnitude in the fewest digits that read back: positional from `0.0001` up to `1e16`, with an
exponent outside. -/
def magnitudeText (m : Rat) : String :=
  if m = 0 then "0.0"
  else
    let s := shortest m
    let ds := Nat.toDigits 10 s.digits
    let e := s.exponent + ds.length - 1
    if -4 ≤ e ∧ e < 16 then positionalText (significant ds) e
    else scientificText (significant ds) e

/-- A double in the fewest digits that read back as the same double. -/
def shortestText : Binary64 → String
  | .finite negative m _ => (if negative then "-" else "") ++ magnitudeText m
  | .infinite negative => if negative then "-inf" else "inf"
  | .nan => "nan"

end Decimal

end LayerStack
