import LayerStack.Fault
import LayerStack.Layer.Field

/-! What an editor may put into a field: flags as they are, finite numbers as they are in real
fields, and in whole fields rounded down and raised to one at least. -/

namespace LayerStack

/-- Whether a number is finite.  A whole number is judged by its double, so that one with no finite
double near it is a fault and not an answer. -/
def Number.checkFinite (x : Number) : Except Fault Bool :=
  match x with
  | .int n => if (Binary64.ofInt? n).isSome then .ok true else .error .wholeTooLarge
  | .real x => .ok x.isFinite

/-- A whole number of one at least. -/
def Number.toCount (x : Number) : Int := max 1 x.floor

/-- What a field holds after it was given `value`; refusals show the value, and are about the layer
`layerId`. -/
def Field.coerce (field : Field) (value : Value) (layerId : Option Text) :
    Except Fault Value :=
  match field.range, value with
  | .flag, .bool b => .ok (.bool b)
  | .flag, value => .error (.showing value (.refused (.notAFlag field.key value) layerId))
  | range, .num x =>
    match x.checkFinite with
    | .error fault => .error fault
    | .ok false => .error (.showing value (.refused (.notFinite field.key value) layerId))
    | .ok true =>
      match range with
      | .whole _ => .ok (.int x.toCount)
      | _ => .ok (.num x)
  | _, value => .error (.showing value (.refused (.notANumber field.key value) layerId))

end LayerStack
