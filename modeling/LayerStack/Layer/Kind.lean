import LayerStack.Json.Value

/-! The kinds of layer that a model can hold, and the classes of kinds that settle whether the
values after a layer are feature vectors or feature maps. -/

namespace LayerStack

inductive Kind where
  | embedding
  | linear
  | conv2d
  | lstm
  | gru
  | transformer
  | attention
  | batchnorm
  | layernorm
  | dropout
  | maxpool2d
  | avgpool2d
  | relu
  | softmax
  deriving DecidableEq, Repr

namespace Kind

/-- Every kind, in the order of the palette. -/
def all : List Kind := [
  .embedding, .linear, .conv2d, .lstm, .gru, .transformer, .attention, .batchnorm, .layernorm,
  .dropout, .maxpool2d, .avgpool2d, .relu, .softmax]

def name : Kind → String
  | .embedding => "embedding"
  | .linear => "linear"
  | .conv2d => "conv2d"
  | .lstm => "lstm"
  | .gru => "gru"
  | .transformer => "transformer"
  | .attention => "attention"
  | .batchnorm => "batchnorm"
  | .layernorm => "layernorm"
  | .dropout => "dropout"
  | .maxpool2d => "maxpool2d"
  | .avgpool2d => "avgpool2d"
  | .relu => "relu"
  | .softmax => "softmax"

def ofName? (s : String) : Option Kind := all.find? fun kind => decide (kind.name = s)

def ofValue? (value : Value) : Option Kind := value.named? ofName?

/-- The kinds after which the values are feature maps. -/
def isSpatial : Kind → Bool
  | .conv2d | .maxpool2d | .avgpool2d => true
  | _ => false

/-- The kinds after which the values are feature vectors. -/
def isFlat : Kind → Bool
  | .embedding | .linear | .lstm | .gru | .transformer | .attention => true
  | _ => false

/-- The kinds whose layers depend on what the values before them are. -/
def isNorm : Kind → Bool
  | .batchnorm | .layernorm => true
  | _ => false

def isRecurrent : Kind → Bool
  | .lstm | .gru => true
  | _ => false

theorem ofName?_name (kind : Kind) : ofName? kind.name = some kind := by
  cases kind <;> decide

theorem ofValue?_name (kind : Kind) : ofValue? (.str kind.name) = some kind := by
  simp [ofValue?, ofName?_name]

end Kind

end LayerStack
