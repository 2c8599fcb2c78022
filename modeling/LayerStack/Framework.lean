/-! The frameworks that a model can be exported to. -/

namespace LayerStack

/-- A framework that a model can be exported to. -/
inductive Framework where
  | pytorch
  | tensorflow
  | jax
  deriving DecidableEq, Repr

namespace Framework

def all : List Framework := [.pytorch, .tensorflow, .jax]

def name : Framework → String
  | .pytorch => "pytorch"
  | .tensorflow => "tensorflow"
  | .jax => "jax"

def displayName : Framework → String
  | .pytorch => "PyTorch"
  | .tensorflow => "TensorFlow"
  | .jax => "JAX"

def filename (framework : Framework) : String := "layercal_" ++ framework.name ++ ".py"

def ofName? (s : String) : Option Framework :=
  all.find? fun framework => decide (framework.name = s)

theorem ofName?_name (framework : Framework) : ofName? framework.name = some framework := by
  cases framework <;> decide

end Framework

end LayerStack
