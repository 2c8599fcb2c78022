import LayerStack.Export.Flax
import LayerStack.Export.Keras
import LayerStack.Export.Torch

/-! The export of a sequence of layers to a framework. -/

namespace LayerStack

/-- The framework that a value names. -/
def Framework.ofValue (value : Value) : Except Fault Framework :=
  match value.named? Framework.ofName? with
  | some framework => .ok framework
  | none => .error (.showing value (.unknownFramework value))

def Framework.source : Framework → List NamedGroup → Except Fault String
  | .pytorch => Export.Torch.source
  | .tensorflow => Export.Keras.source
  | .jax => Export.Flax.source

/-- A generated program and the framework it is for. -/
structure Program where
  framework : Framework
  source : String

/-- The program for layers in the framework that a value names.  The layers are grouped and named
before the framework is looked up. -/
def Program.ofLayers (framework : Value) (layers : List Layer) : Except Fault Program := do
  let units ← NamedGroup.ofLayers layers
  let framework ← Framework.ofValue framework
  let source ← framework.source units
  return ⟨framework, source⟩

end LayerStack
