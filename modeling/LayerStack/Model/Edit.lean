import LayerStack.Model.Payload

/-! Editing sessions: a model and its id source, and the steps that change them.  A step that ends
in a fault leaves the model as it was, unless the fault is met after a layer was taken out. -/

namespace LayerStack

/-- A step of an editing session. -/
inductive Edit where
  | add (kind : Value) (position : Option Int) (id : Option Text)
  | delete (id : Option Text)
  | move (source target : Int)
  | update (id : Option Text) (key : Text) (value : Value)
  | load (payload : Value)

/-- What is being edited. -/
structure Workspace where
  model : Model
  ids : IdSource

namespace Workspace

/-- What a step answers: the layer that was added, or whether any layer was deleted. -/
inductive Answer where
  | layer (layer : Layer)
  | deleted (any : Bool)
  | silent

/-- The workspace after a step, and its answer. -/
def apply (workspace : Workspace) : Edit → Except Fault Answer × Workspace
  | .add kind position id =>
    match workspace.model.add kind position id workspace.ids with
    | (.ok (layer, model), ids) => (.ok (.layer layer), ⟨model, ids⟩)
    | (.error fault, ids) => (.error fault, { workspace with ids })
  | .delete id =>
    let (any, model) := workspace.model.delete id
    (.ok (.deleted any), { workspace with model })
  | .move source target =>
    let (result, model) := workspace.model.move source target
    (result.map fun _ => .silent, { workspace with model })
  | .update id key value =>
    match workspace.model.update id key value with
    | .ok model => (.ok .silent, { workspace with model })
    | .error fault => (.error fault, workspace)
  | .load payload =>
    match Model.ofPayload payload workspace.ids with
    | (.ok model, ids) => (.ok .silent, ⟨model, ids⟩)
    | (.error fault, ids) => (.error fault, { workspace with ids })

/-- The workspace after a sequence of steps, whatever their answers. -/
def run (workspace : Workspace) (edits : List Edit) : Workspace :=
  edits.foldl (fun workspace edit => (workspace.apply edit).2) workspace

end Workspace

end LayerStack
