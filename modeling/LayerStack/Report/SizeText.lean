import LayerStack.Fault

/-! Counts and sizes in words that people read: two places and the largest unit that fits. -/

namespace LayerStack

namespace SizeText

/-- A unit: how much it stands for, and what is written after the number. -/
structure Scale where
  amount : Nat
  mark : String
  deriving DecidableEq

/-- The units of counts, the largest one first. -/
def countScales : List Scale := [
  ⟨1000000000000, "T"⟩, ⟨1000000000, "G"⟩, ⟨1000000, "M"⟩, ⟨1000, "K"⟩]

def byteScales : List Scale := [
  ⟨1000000000, " GB"⟩, ⟨1000000, " MB"⟩, ⟨1000, " KB"⟩]

def toReal (x : Number) : Except Fault Binary64 :=
  match x.toBinary64? with
  | some x => .ok x
  | none => .error .wholeTooLarge

/-- A number in the first unit that it reaches; one below all of them is written in full. -/
def scaled (scales : List Scale) (bare : String) (x : Number) : Except Fault String :=
  match scales.find? fun scale => x.atLeast scale.amount with
  | some scale => (toReal x).map fun x => Decimal.fixedText (x.divNat scale.amount) ++ scale.mark
  | none => .ok (x.text ++ bare)

/-- A count, such as `3.15M`. -/
def count (x : Number) : Except Fault String := scaled countScales "" x

/-- A number of bytes, such as `4.00 MB`. -/
def bytes (x : Number) : Except Fault String := scaled byteScales " B" x

/-- A size given in units of 1024 times 1024 bytes; below one such unit it is written in the unit
that is 1024 times smaller. -/
def megabytes (x : Number) : Except Fault String :=
  if x.below 1 then (toReal (x.mulNat 1024)).map fun x => Decimal.fixedText x ++ " KB"
  else (toReal x).map fun x => Decimal.fixedText x ++ " MB"

end SizeText

end LayerStack
