import LayerStack.Layer.Config
import LayerStack.Layer.Kind

/-! Fields: what can be set on a layer of each kind, and with what a new layer starts. -/

namespace LayerStack

/-- What a field holds: a whole number with sizes to choose from, a number between two bounds with
a step for editors, or a flag.  Bounds and sizes are suggestions and are not enforced. -/
inductive FieldRange where
  | whole (choices : List Int)
  | real (least most : Int) (step : Binary64)
  | flag
  deriving DecidableEq

def FieldRange.typeName : FieldRange → String
  | .whole _ => "integer"
  | .real .. => "real"
  | .flag => "boolean"

/-- A field of a kind of layer: its key, its range, and what it holds in a new layer. -/
structure Field where
  key : String
  range : FieldRange
  initial : Value
  deriving DecidableEq

namespace Field

def whole (key : String) (choices : List Int) (initial : Int) : Field :=
  ⟨key, .whole choices, .int initial⟩

def flag (key : String) (initial : Bool) : Field := ⟨key, .flag, .bool initial⟩

/-- A field for the share of values that are dropped in training. -/
def rate (key : String) : Field := ⟨key, .real 0 1 .tenth, .real .tenth⟩

end Field

namespace Kind

def attentionFields : List Field := [
  .whole "d_model" [256, 512, 768, 1024] 512,
  .whole "num_heads" [4, 8, 12, 16] 8]

def recurrentFields : List Field := [
  .whole "input_size" [64, 128, 256, 512, 768] 128,
  .whole "hidden_size" [128, 256, 512, 768, 1024] 256,
  .whole "num_layers" [1, 2, 3, 4] 1,
  .flag "bidirectional" false]

def fields : Kind → List Field
  | .embedding => [
    .whole "vocab_size" [5000, 10000, 30000, 50000] 10000,
    .whole "embedding_dim" [64, 128, 256, 512, 768, 1024] 128]
  | .linear => [
    .whole "input_dim" [64, 128, 256, 512, 768, 1024, 2048] 512,
    .whole "output_dim" [64, 128, 256, 512, 768, 1024, 2048] 256,
    .flag "use_bias" true]
  | .conv2d => [
    .whole "in_channels" [1, 3, 16, 32, 64, 128, 256] 3,
    .whole "out_channels" [16, 32, 64, 128, 256, 512] 64,
    .whole "kernel_size" [1, 3, 5, 7] 3,
    .flag "use_bias" true]
  | .lstm | .gru => recurrentFields
  | .transformer =>
    attentionFields ++ [.whole "d_ff" [1024, 2048, 3072, 4096] 2048, .rate "dropout"]
  | .attention => attentionFields
  | .batchnorm => [.whole "num_features" [64, 128, 256, 512, 768, 1024] 128]
  | .layernorm => [.whole "normalized_shape" [128, 256, 512, 768, 1024] 512]
  | .dropout => [.rate "rate"]
  | .maxpool2d | .avgpool2d => [.whole "kernel_size" [2, 3, 4] 2]
  | .relu | .softmax => []

def field? (kind : Kind) (key : Text) : Option Field :=
  kind.fields.find? fun field => decide (Text.ofString field.key = key)

def defaultConfig (kind : Kind) : Config :=
  ⟨kind.fields.map fun field => (field.key, field.initial)⟩

end Kind

end LayerStack
