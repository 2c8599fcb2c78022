import LayerStack.Fault
import LayerStack.Palette.Language
import LayerStack.Service.Route

/-! Requests, as the host of the service hands them over, and responses.  How a message is taken
apart is the host's affair: which view it is led to, what its query and its body hold, and which of
several languages its visitor prefers.  The service asks the host for these things, and all that it
relies on is stated here. -/

namespace LayerStack.Service

inductive Response where
  | json (status : Nat) (body : Value)
  /-- Text with the status 200, and the disposition of a download. -/
  | text (mediaType content : String) (disposition : Option String)
  /-- A page for a status that is not the service's own. -/
  | bare (status : Nat)
  deriving DecidableEq

namespace Response

/-- The report of a fault under a status. -/
def report (status : Nat) (fault : Fault) : Response :=
  let cause : Members := [("type", .str "error"), ("message", .str fault.message)]
  let subject : Members := match fault.layerId? with
    | some layerId => [("layer_id", .str layerId)]
    | none => []
  let entry := Value.obj (cause ++ subject)
  .json status (.obj [("success", .bool false), ("errors", .list [entry])])

/-- The answer for a result; a fault that is not reported fails the request. -/
def ofResult : Except Fault Response → Response
  | .ok response => response
  | .error fault =>
    match fault.status? with
    | some status => report status fault
    | none => .bare 500

end Response

/-- What the body of a request comes to. -/
inductive Posted where
  /-- A JSON text with the given value. -/
  | json (value : Value) (valid : value.isJson = true)
  /-- No body, or one that is no JSON text. -/
  | nothing
  /-- A JSON text that is nested too deep for the machine. -/
  | tooDeep

/-- The body that posts a value, if it is that of a JSON text. -/
def Posted.ofValue (value : Value) : Posted :=
  if h : value.isJson = true then .json value h else .nothing

/-- Where a request is led. -/
inductive Destination where
  | view (route : Route)
  /-- To no view of the service: the host has answered it. -/
  | answered (response : Response)
  deriving DecidableEq

structure Request where
  method : String
  destination : Destination
  /-- The value of an argument in the query, the first one of its name. -/
  argument : String → Option String
  /-- The one of the offered languages that the visitor prefers, if any of them is accepted. -/
  bestMatch : List String → Option String
  bestMatch_mem : ∀ {offered : List String} {tag : String},
    bestMatch offered = some tag → tag ∈ offered
  posted : Posted

namespace Request

/-- The language of the service that the visitor prefers. -/
def preferred (request : Request) : Option String :=
  request.bestMatch (Language.all.map Language.code)

/-- The JSON value that is posted.  A text that is nested too deep is a fault. -/
def json? (request : Request) : Except Fault (Option Value) :=
  match request.posted with
  | .json value _ => .ok (some value)
  | .nothing => .ok none
  | .tooDeep => .error .bodyTooDeep

end Request

end LayerStack.Service
