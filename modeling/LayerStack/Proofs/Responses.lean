import LayerStack.Proofs.Refusals
import LayerStack.Service.Respond

/-! Requests by the method and the route that they ask for, and what is answered to them. -/

namespace LayerStack.Service

/-- A request that is led to a route, by a method. -/
def Request.Asks (request : Request) (method : String) (route : Route) : Prop :=
  request.method = method ∧ request.destination = .view route

instance (request : Request) (method : String) (route : Route) :
    Decidable (request.Asks method route) :=
  inferInstanceAs (Decidable (_ ∧ _))

/-- A request for a route gets what is made for that route. -/
theorem respond_of_asks [Machine] {request : Request} {method : String} {route : Route}
    (h : request.Asks method route) (defaults : Defaults) (visit : Visit) :
    respond defaults request visit = (Response.ofResult (handle route defaults request visit).1,
      (handle route defaults request visit).2) := by
  rw [respond, h.2]

def Response.status : Response → Nat
  | .json status _ | .bare status => status
  | .text .. => 200

/-- A fault is never answered as a success. -/
theorem Response.status_ofResult_error (fault : Fault) :
    (ofResult (.error fault)).status ≠ 200 := by
  cases fault <;> simp [ofResult, Fault.status?, report, status]

/-- A request for a route that posts a value, of a visitor who accepts no language. -/
def sending (method : String) (route : Route) (body : Value) : Request where
  method
  destination := .view route
  argument _ := none
  bestMatch _ := none
  bestMatch_mem := by simp
  posted := .ofValue body

/-- A request to read what is at a route. -/
def reading (route : Route) : Request where
  method := "GET"
  destination := .view route
  argument _ := none
  bestMatch _ := none
  bestMatch_mem := by simp
  posted := .nothing

/-- A visit of somebody who has stored nothing. -/
def freshVisit : Visit := ⟨[], .counting⟩

end LayerStack.Service
