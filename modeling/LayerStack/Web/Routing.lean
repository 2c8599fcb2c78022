import LayerStack.Service.Request

/-! Where a message is led by its method and its path. -/

namespace LayerStack.Web

open Service (Route Response Destination)

/-- What is found under a path: a view of the service, or a file that its page uses, of
which there are none. -/
inductive Resource where
  | view (route : Route)
  | file
  deriving DecidableEq, Repr

namespace Resource

/-- What stands in a path before the name of a file. -/
def folder : List Char := "/static/".toList

/-- Whether a path is that of a file, whose name is on one line and starts with no slash. -/
def isFilePath (path : List Char) : Bool :=
  match path.drop folder.length with
  | c :: rest => folder.isPrefixOf path && c != '/' && !rest.contains '\n'
  | [] => false

def ofPath? (path : List Char) : Option Resource :=
  match Route.all.find? fun route => decide (route.path.toList = path) with
  | some route => some (.view route)
  | none => if isFilePath path then some .file else none

def methods : Resource → List String
  | .view route => route.methods
  | .file => ["GET"]

/-- Whether a resource answers a method: each one tells its options, and what can be read has a
head. -/
def answers (resource : Resource) (method : String) : Bool :=
  decide (method ∈ resource.methods ∨ method = "OPTIONS" ∨
    method = "HEAD" ∧ "GET" ∈ resource.methods)

/-- Where a method that a resource answers is led. -/
def destination (resource : Resource) (method : String) : Destination :=
  if method = "OPTIONS" then .answered (.text "text/html" "" none)
  else
    match resource with
    | .view route => .view route
    | .file => .answered (.bare 404)

end Resource

/-- A path in which each pair of slashes, from left to right, is one slash. -/
def mergeSlashes : List Char → List Char
  | '/' :: '/' :: rest => '/' :: mergeSlashes rest
  | c :: rest => c :: mergeSlashes rest
  | [] => []

/-- Where a message for a path by a method is led.  A path under which nothing is found may become
that of something by a slash at the end of nothing, or with fewer slashes. -/
def destination (method : String) (path : List Char) : Destination :=
  match Resource.ofPath? path with
  | some resource =>
    if resource.answers method then resource.destination method else .answered (.bare 405)
  | none =>
    if path.isEmpty then
      .answered (.bare (if (Resource.view .page).answers method then 308 else 404))
    else
      match Resource.ofPath? (mergeSlashes path) with
      | some resource => .answered (.bare (if resource.answers method then 308 else 405))
      | none => .answered (.bare 404)

end LayerStack.Web
