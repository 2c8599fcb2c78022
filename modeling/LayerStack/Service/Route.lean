/-! The routes of the service, with their paths and the methods that each of them answers. -/

namespace LayerStack.Service

/-- What can be asked for. -/
inductive Route where
  | page
  | layerTypes
  | settings
  | calculate
  | groups
  | code
  | download
  deriving DecidableEq, Repr

namespace Route

def all : List Route := [.page, .layerTypes, .settings, .calculate, .groups, .code, .download]

def path : Route → String
  | .page => "/"
  | .layerTypes => "/api/layer-types"
  | .settings => "/api/settings"
  | .calculate => "/api/calculate"
  | .groups => "/api/groups"
  | .code => "/api/code"
  | .download => "/api/export"

def methods : Route → List String
  | .page | .layerTypes => ["GET"]
  | .settings => ["GET", "POST"]
  | .calculate | .groups | .code | .download => ["POST"]

end Route

end LayerStack.Service
