import LayerStack.Service.Answer

/-! The service as a whole: the answer to a request, and the visit after it. -/

namespace LayerStack.Service

variable [Machine]

/-- The result of a request for a route, and the visit after it. -/
def handle (route : Route) (defaults : Defaults) (request : Request) (visit : Visit) :
    Except Fault Response × Visit :=
  let drawn (result : Drawn Response) := (result.1, { visit with ids := result.2 })
  match route with
  | .page => (pageAnswer defaults request visit, visit)
  | .layerTypes => (layerTypesAnswer defaults request visit, visit)
  | .settings =>
    if request.method = "POST" then updateAnswer defaults request visit
    else (settingsAnswer defaults request visit, visit)
  | .calculate => drawn (calculateAnswer defaults request visit)
  | .groups => drawn (groupsAnswer request visit)
  | .code => drawn (codeAnswer defaults request visit)
  | .download => drawn (downloadAnswer defaults request visit)

/-- The answer to a request, and the visit after it. -/
def respond (defaults : Defaults) (request : Request) (visit : Visit) : Response × Visit :=
  match request.destination with
  | .answered response => (response, visit)
  | .view route =>
    let (result, visit) := handle route defaults request visit
    (.ofResult result, visit)

end LayerStack.Service
