import LayerStack.Json.Value

/-! Configurations: the values that the fields of a layer hold, by key.  The fields of a layer in a
model hold numbers and flags; a configuration that is given from outside may hold anything. -/

namespace LayerStack

/-- The values of the fields of a layer by key. -/
structure Config where
  entries : Entries String Value
  deriving DecidableEq

namespace Config

def get? (config : Config) (key : String) : Option Value := config.entries.get? key

/-- The configuration with one value replaced, or added if the key is new. -/
def set (config : Config) (key : String) (value : Value) : Config :=
  ⟨config.entries.set key value⟩

def keys (config : Config) : List String := config.entries.keys

def ofPairs (pairs : List (String × Value)) : Config := ⟨Entries.ofPairs pairs⟩

/-- Whether two configurations have the same keys, in any order, with values that are equal. -/
def same (a b : Config) : Bool :=
  decide (a.entries.length = b.entries.length) &&
    a.entries.all fun entry =>
      match b.get? entry.1 with
      | some value => entry.2.same value
      | none => false

def toValue (config : Config) : Value :=
  .obj (config.entries.map fun entry => (entry.1, entry.2))

end Config

end LayerStack
