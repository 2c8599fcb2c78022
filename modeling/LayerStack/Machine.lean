/-! What the program leaves to the machine that it runs on. -/

namespace LayerStack

/-- How much room a machine has. -/
class Machine where
  /-- The most characters of a text, or items of a list, that there is room for. -/
  maxLength : Int
  /-- The most lists and objects of a JSON text that may be open at a time. -/
  maxDepth : Nat

/-- A machine with little room. -/
@[reducible] def Machine.small : Machine := ⟨1000, 100⟩

end LayerStack
