import LayerStack.Json.Reader
import LayerStack.Service.Respond
import LayerStack.Text.Encoding
import LayerStack.Web.AcceptLanguage
import LayerStack.Web.Routing
import LayerStack.Web.Target

/-! Messages as a client sends them, and a host that makes requests of them. -/

namespace LayerStack.Web

open Service (Posted Request Response Defaults Visit)

structure Body where
  contentType : String
  text : String

structure Message where
  method : String
  target : Target
  /-- The query, if it is given apart from the target. -/
  query : Option (List (String × String))
  acceptLanguage : Option String
  body : Option Body

namespace Body

/-- The media type of a body, without parameters and in lower case. -/
def mediaType (body : Body) : List Char := Text.lower (HeaderValue.bare body.contentType.toList)

/-- Whether a body has the media type of JSON, or of a format that is built on JSON. -/
def isJson (body : Body) : Bool :=
  body.mediaType == "application/json".toList ||
    ("application/".toList.isPrefixOf body.mediaType && "+json".toList.isSuffixOf body.mediaType)

/-- What a body comes to. -/
def posted [Machine] (body : Body) : Posted :=
  if body.isJson then
    match (Text.ofSent? body.text).map Json.read with
    | some (.ok value) => .ofValue value
    | some (.error .tooDeep) => .tooDeep
    | some (.error .malformed) | none => .nothing
  else .nothing

end Body

namespace Message

/-- The method in upper case, as it is sent. -/
def verb (message : Message) : String := String.ofList (Text.upper message.method.toList)

def argument (message : Message) (name : String) : Option String :=
  let pairs := message.query.getD message.target.parameters
  (pairs.find? fun pair => decide (pair.1 = name)).map (·.2)

/-- The request that the host makes of a message. -/
def request [Machine] (message : Message) : Request where
  method := message.verb
  destination := destination message.verb message.target.lookupPath
  argument := message.argument
  bestMatch := bestMatch message.acceptLanguage
  bestMatch_mem := mem_of_bestMatch
  posted := (message.body.map Body.posted).getD .nothing

end Message

/-- The answer without its content. -/
def withoutContent : Response → Response
  | .json status _ => .bare status
  | .text mediaType _ disposition => .text mediaType "" disposition
  | .bare status => .bare status

/-- The answer to a message, and the visit after it. -/
def serve [Machine] (defaults : Defaults) (message : Message) (visit : Visit) : Response × Visit :=
  let (response, visit) := Service.respond defaults message.request visit
  (if message.verb = "HEAD" then withoutContent response else response, visit)

end LayerStack.Web
