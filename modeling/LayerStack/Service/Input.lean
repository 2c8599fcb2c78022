import LayerStack.Model.Payload
import LayerStack.Service.Request
import LayerStack.Service.Settings

/-! What the service reads from a request: the object in its body, the layers, options and sizes in
that object, and the settings of the visitor, which stand in for options that are not given. -/

namespace LayerStack.Service

/-- What is remembered between the requests of a visitor: the stored settings, and where the ids of
layers come from. -/
structure Visit where
  session : Session
  ids : IdSource

/-- A result, and the id source after it. -/
abbrev Drawn (α : Type) := Except Fault α × IdSource

/-- The value of a setting for a request. -/
def setting (defaults : Defaults) (request : Request) (visit : Visit) (which : UserSetting) :
    Except Fault Value :=
  which.read defaults request.preferred visit.session

def settings (defaults : Defaults) (request : Request) (visit : Visit) :
    Except Fault Members :=
  UserSetting.readAll defaults request.preferred visit.session

/-- The members of the object that a request has to carry. -/
def payload (request : Request) : Except Fault Members :=
  match request.json? with
  | .error fault => .error fault
  | .ok (some (.obj members)) => .ok members
  | .ok _ => .error (.refused .bodyNotAnObject none)

/-- The model in a payload; one without layers is empty. -/
def readModel (data : Members) (ids : IdSource) : Drawn Model :=
  Model.ofPayload ((data.get? "layers").getD (.list [])) ids

/-- A text option of a payload, or the setting of the user if it is absent or empty. -/
def readOption (data : Members) (key : String) (fallback : Except Fault Value) :
    Except Fault Value :=
  match data.get? key with
  | none | some .null => fallback
  | some (.str s) => if s.isEmpty then fallback else .ok (.str s)
  | some value => .error (.refused (.optionNotText key value) none)

/-- The sizes given by the members of a context, each of which is a whole number of one at least. -/
def readSizes (shape : Shape) : Members → Except Fault Shape
  | [] => .ok shape
  | (key, value) :: rest =>
    match key.string?.bind Dimension.ofName?, value with
    | none, _ => .error (.refused (.unknownDimension key) none)
    | some d, .num (.int n) =>
      if n < 1 then .error (.refused (.sizeNotPositive d.name) none)
      else readSizes (shape.set d n) rest
    | some d, _ => .error (.refused (.sizeNotPositive d.name) none)

/-- The shape that a payload asks to count in. -/
def readShape (data : Members) : Except Fault Shape :=
  let context := (data.get? "context").getD .null
  if context.isGiven then
    match context with
    | .obj members => readSizes .empty members
    | _ => .error (.refused .contextNotAnObject none)
  else .ok .empty

end LayerStack.Service
