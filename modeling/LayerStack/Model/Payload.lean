import LayerStack.Model.Basic

/-! Reading a model from the list of layers that an editor sends.  Every entry names its type; an id
is made up where none is given, fields that are not mentioned keep their defaults, and members that
are not fields are passed over.  The first thing that is wrong, in the order of the entries, is the
fault. -/

namespace LayerStack

namespace Payload

/-- What an entry says of its layer before an id is settled: the members of the entry, its id as
text, and its kind. -/
structure Head where
  members : Members
  id : Option Text
  kind : Kind

/-- The id that a member gives; any value but null is taken as text. -/
def givenId (members : Members) : Except Fault (Option Text) :=
  match members.get? "id" with
  | none | some .null => .ok none
  | some value => value.plain.map some

def givenType (members : Members) : Value := (members.get? "type").getD .null

/-- The head of the entry at a position, which counts from one. -/
def readHead (position : Nat) (entry : Value) : Except Fault Head :=
  match entry with
  | .obj members =>
    match givenId members, Kind.ofValue? (givenType members) with
    | .error fault, _ => .error fault
    | .ok id, some kind => .ok ⟨members, id, kind⟩
    | .ok id, none =>
      .error (.showing (givenType members) (.refused (.unknownType (givenType members)) id))
  | _ => .error (.refused (.entryNotAnObject position) none)

/-- The configuration that an entry gives, under either of two names. -/
def givenConfig (members : Members) : Value :=
  match members.get? "config" with
  | some value => value
  | none => (members.get? "params").getD .null

/-- The members of a configuration; whatever does not count as given has none. -/
def configMembers (position : Nat) (layerId : Text) (config : Value) :
    Except Fault Members :=
  if config.isGiven then
    match config with
    | .obj members => .ok members
    | _ => .error (.refused (.configNotAnObject position) (some layerId))
  else .ok []

/-- The layer with its fields set, one after the other. -/
def updateAll (layer : Layer) : Members → Except Fault Layer
  | [] => .ok layer
  | (key, value) :: rest =>
    if (layer.kind.field? key).isSome then
      match layer.update key value with
      | .error fault => .error fault
      | .ok updated => updateAll updated rest
    else updateAll layer rest

/-- The layer of a head whose id is settled. -/
def readLayer (position : Nat) (head : Head) (id : Text) : Except Fault Layer :=
  match configMembers position id (givenConfig head.members) with
  | .error fault => .error fault
  | .ok members => updateAll (Layer.ofKind id head.kind) members

/-- The layer of an entry that comes after the layers of `model`. -/
def readEntry (model : Model) (position : Nat) (entry : Value) (ids : IdSource) :
    Except Fault Layer × IdSource :=
  match readHead position entry with
  | .error fault => (.error fault, ids)
  | .ok head =>
    match head.id, model.find? head.id with
    | some id, some _ => (.error (.refused (.duplicateId id) (some id)), ids)
    | given, _ =>
      let (id, ids) := ids.settle given
      (readLayer position head id, ids)

/-- The model with the layers of all entries at its end. -/
def readEntries (model : Model) : List Value → IdSource → Except Fault Model × IdSource
  | [], ids => (.ok model, ids)
  | entry :: rest, ids =>
    match readEntry model (model.layers.length + 1) entry ids with
    | (.error fault, ids) => (.error fault, ids)
    | (.ok layer, ids) => readEntries ⟨model.layers ++ [layer]⟩ rest ids

end Payload

/-- The model of a payload, and the id source after it; ids drawn before a fault stay drawn. -/
def Model.ofPayload (payload : Value) (ids : IdSource) : Except Fault Model × IdSource :=
  match payload with
  | .list entries => Payload.readEntries .empty entries ids
  | _ => (.error (.refused .layersNotAList none), ids)

end LayerStack
