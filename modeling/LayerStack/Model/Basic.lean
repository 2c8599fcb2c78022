import LayerStack.Layer.Coerce
import LayerStack.Model.IdSource
import LayerStack.Position

/-! Models: layers in the order in which they are shown and run.  Positions count from the end when
they are negative.  Every operation gives either a new model or a fault. -/

namespace LayerStack

structure Layer where
  id : Text
  kind : Kind
  config : Config
  deriving DecidableEq

namespace Layer

/-- A layer as it is created, with the default configuration of its kind. -/
def ofKind (id : Text) (kind : Kind) : Layer := ⟨id, kind, kind.defaultConfig⟩

/-- The layer with one field given a value. -/
def update (layer : Layer) (key : Text) (value : Value) : Except Fault Layer :=
  match layer.kind.field? key with
  | none => .error (.refused (.noSuchField layer.kind key) (some layer.id))
  | some field =>
    match field.coerce value (some layer.id) with
    | .error fault => .error fault
    | .ok held => .ok { layer with config := layer.config.set field.key held }

def toValue (layer : Layer) : Value :=
  .obj [("id", .str layer.id), ("type", .str layer.kind.name), ("config", layer.config.toValue)]

end Layer

structure Model where
  layers : List Layer
  deriving DecidableEq

namespace Model

def empty : Model := ⟨[]⟩

/-- The first layer with the given id; an absent id is nobody's. -/
def find? (model : Model) (id : Option Text) : Option Layer :=
  model.layers.find? fun layer => decide (some layer.id = id)

def noLayer (id : Option Text) : Fault := .refused (.noSuchLayer id) id

/-- The position of the first layer with the given id. -/
def indexOf (model : Model) (id : Option Text) : Except Fault Nat :=
  match model.layers.findIdx? fun layer => decide (some layer.id = id) with
  | some i => .ok i
  | none => .error (noLayer id)

def layerAt (model : Model) (position : Int) : Except Fault Layer :=
  if isPosition position then
    match (place? model.layers.length position).bind fun i => model.layers[i]? with
    | some layer => .ok layer
    | none => .error .noSuchPosition
  else .error .indexTooLarge

/-- The model with a layer put in at a position, or at the end if none is given. -/
def insert (model : Model) (layer : Layer) (position : Option Int) : Except Fault Model :=
  match position with
  | none => .ok ⟨model.layers ++ [layer]⟩
  | some position =>
    if isPosition position then .ok ⟨insertAt model.layers position layer⟩
    else .error .positionTooLarge

/-- The model with a new layer of the named kind, at a position or at the end.  The id source moves
on only if it is asked for an id, but also if there is no such position. -/
def add (model : Model) (kind : Value) (position : Option Int) (id : Option Text)
    (ids : IdSource) : Except Fault (Layer × Model) × IdSource :=
  match id, model.find? id, Kind.ofValue? kind with
  | some id, some _, _ => (.error (.refused (.duplicateId id) (some id)), ids)
  | _, _, none => (.error (.showing kind (.unknownKind kind)), ids)
  | _, _, some kind =>
    let (newId, ids) := ids.settle id
    let layer := Layer.ofKind newId kind
    ((model.insert layer position).map fun model => (layer, model), ids)

/-- The model without the layers of the given id, and whether there were any. -/
def delete (model : Model) (id : Option Text) : Bool × Model :=
  let rest := model.layers.filter fun layer => decide (some layer.id ≠ id)
  (decide (rest.length ≠ model.layers.length), ⟨rest⟩)

/-- The layer at a position and the model without it. -/
def takeOut (model : Model) (position : Int) : Except Fault (Layer × Model) :=
  if isPosition position then
    match takeOut? model.layers position with
    | some (layer, rest) => .ok (layer, ⟨rest⟩)
    | none => .error (if model.layers.isEmpty then .takeFromEmpty else .takeOutOfRange)
  else .error .positionTooLarge

/-- The model with the layer at `source` taken out and put in again at `target`.  Nothing is looked
at when the two are the same, and a layer that is out already is lost if there is no position
`target`. -/
def move (model : Model) (source target : Int) : Except Fault Unit × Model :=
  if source = target then (.ok (), model)
  else
    match model.takeOut source with
    | .error fault => (.error fault, model)
    | .ok (layer, rest) =>
      match rest.insert layer (some target) with
      | .error fault => (.error fault, rest)
      | .ok moved => (.ok (), moved)

theorem move_self (model : Model) (position : Int) :
    model.move position position = (.ok (), model) := by
  simp [move]

/-- The layers with the first one of the given id changed. -/
def updateFirst (change : Layer → Except Fault Layer) (id : Option Text) :
    List Layer → Except Fault (List Layer)
  | [] => .error (noLayer id)
  | layer :: rest =>
    if some layer.id = id then
      match change layer with
      | .error fault => .error fault
      | .ok changed => .ok (changed :: rest)
    else
      match updateFirst change id rest with
      | .error fault => .error fault
      | .ok changed => .ok (layer :: changed)

/-- The model with a field of the layer of the given id set to a value. -/
def update (model : Model) (id : Option Text) (key : Text) (value : Value) :
    Except Fault Model :=
  (updateFirst (fun layer => layer.update key value) id model.layers).map Model.mk

/-- The layers as the list that an editor sends. -/
def toValue (model : Model) : Value := .list (model.layers.map Layer.toValue)

end Model

end LayerStack
