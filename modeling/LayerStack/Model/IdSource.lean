import LayerStack.Text.Basic

/-! The source of the ids that layers get when none is given. -/

namespace LayerStack

/-- A sequence of ids and the position of the next one. -/
structure IdSource where
  next : Nat
  idAt : Nat → Text

namespace IdSource

def draw (ids : IdSource) : Text × IdSource :=
  (ids.idAt ids.next, { ids with next := ids.next + 1 })

/-- The given id, or the next one if none or an empty one is given. -/
def settle (ids : IdSource) (given : Option Text) : Text × IdSource :=
  match given with
  | some id => if id.isEmpty then ids.draw else (id, ids)
  | none => ids.draw

theorem settle_some (ids : IdSource) {id : Text} (h : id.isEmpty = false) :
    ids.settle (some id) = (id, ids) := by
  simp [settle, h]

@[simp] theorem settle_none (ids : IdSource) : ids.settle none = ids.draw := rfl

end IdSource

end LayerStack
