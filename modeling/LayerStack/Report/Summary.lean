import LayerStack.Layer.Count
import LayerStack.Model.Basic

/-! The parameters and operations of a model, layer by layer and in total, and the share that each
layer has of the parameters. -/

namespace LayerStack

structure CountedLayer where
  layer : Layer
  parameters : Int
  operations : Int

/-- The line of a summary about one layer; the share is in percent. -/
structure SummaryRow where
  id : Text
  kind : Kind
  parameters : Int
  operations : Int
  share : Binary64

structure Summary where
  totalParameters : Int
  totalOperations : Int
  rows : List SummaryRow

namespace Summary

def count [Machine] (shape : Shape) (layer : Layer) : Except Fault CountedLayer := do
  let parameters ← layer.kind.parameters layer.config
  let operations ← layer.kind.operations layer.config shape
  return ⟨layer, parameters, operations⟩

def total (counts : List Int) : Int := counts.foldl (fun sum n => sum + n) 0

/-- The percentage that `part` is of `whole`; zero if there is nothing to share. -/
def share (part whole : Int) : Except Fault Binary64 :=
  if 0 < whole then
    match Binary64.quotient? part whole.toNat with
    | some ratio => .ok (ratio.mulNat 100)
    | none => .error .quotientTooLarge
  else .ok .zero

def row (whole : Int) (counted : CountedLayer) : Except Fault SummaryRow := do
  let share ← share counted.parameters whole
  return ⟨counted.layer.id, counted.layer.kind, counted.parameters, counted.operations, share⟩

/-- The summary of layers in a shape. -/
def ofLayers [Machine] (layers : List Layer) (shape : Shape) : Except Fault Summary := do
  let counted ← layers.mapM (count shape)
  let whole := total (counted.map CountedLayer.parameters)
  let rows ← counted.mapM (row whole)
  return ⟨whole, total (counted.map CountedLayer.operations), rows⟩

end Summary

/-- The JSON form of a row, with the share rounded to one place. -/
def SummaryRow.toMembers (row : SummaryRow) : Members := [
  ("id", .str row.id),
  ("type", .str row.kind.name),
  ("params", .int row.parameters),
  ("flops", .int row.operations),
  ("percentage", .real row.share.roundTenth)]

end LayerStack
