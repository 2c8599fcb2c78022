import LayerStack.Layer.Amount
import LayerStack.Layer.Field

/-! Trainable parameters and operations of one layer.  A multiplication followed by an addition is
two operations; biases and activations are not counted as operations, and the two norms take a
fixed number of operations for each value.  A configuration is read where its values are needed, so
that of two faults the one is met that is needed first. -/

namespace LayerStack

namespace Config

/-- The value under a key that has to be there. -/
def read (config : Config) (key : String) : Amount :=
  match config.get? key with
  | some value => .ok value
  | none => .error (.missingKey key)

/-- Whether the value under a key is switched on. -/
def readFlag (config : Config) (key : String) : Except Fault Bool :=
  (config.read key).map Value.isGiven

/-- An amount that counts only if the value under a key is switched on. -/
def readIf (config : Config) (key : String) (amount : Amount) : Amount := do
  if ← config.readFlag key then amount else 0

end Config

/-- The parameters of the query, key, value and output projections with their biases. -/
def attentionParameters [Machine] (model : Amount) : Amount := 4 * (model * model + model)

/-- The operations of the three input projections, the scores, and the output. -/
def attentionOperations [Machine] (model seqLen : Amount) : Amount :=
  6 * seqLen * model * model + 2 * seqLen * seqLen * model + 2 * seqLen * model * model

/-- What a stack of recurrent layers is made of. -/
structure Recurrent where
  directions : Int
  hidden : Value
  layers : Int
  /-- The width of the input, which is read only if there is a layer to feed. -/
  input : Amount

namespace Recurrent

/-- The recurrent stack that a configuration describes. -/
def ofConfig (config : Config) : Except Fault Recurrent := do
  let bidirectional ← config.readFlag "bidirectional"
  let hidden ← config.read "hidden_size"
  let layers ← (← config.read "num_layers").passes
  return ⟨if bidirectional then 2 else 1, hidden, layers, config.read "input_size"⟩

/-- The width that layer `i` takes in: later layers read the outputs of all directions. -/
def inputOf [Machine] (r : Recurrent) (i : Nat) : Amount :=
  if i = 0 then r.input else (r.hidden : Amount) * (r.directions : Amount)

/-- A total with the terms of `n` layers from layer `i` on; a fault ends the sum. -/
def sumFrom (term : Nat → Amount) (total : Value) (i n : Nat) : Amount :=
  match n with
  | 0 => total
  | n + 1 =>
    match (total : Amount) + term i with
    | .ok total => sumFrom term total (i + 1) n
    | .error fault => .error fault

/-- A sum over the layers of the stack. -/
def sumLayers (r : Recurrent) (term : Nat → Amount) : Amount :=
  sumFrom term (.int 0) 0 r.layers.toNat

def parameters [Machine] (r : Recurrent) (gates : Int) : Amount :=
  let hidden : Amount := r.hidden
  r.sumLayers fun i =>
    let perDirection := (gates : Amount) * (r.inputOf i * hidden + hidden * hidden + 2 * hidden)
    perDirection * (r.directions : Amount)

def operations [Machine] (r : Recurrent) (gates seqLen : Int) : Amount :=
  let hidden : Amount := r.hidden
  r.sumLayers fun i =>
    (gates : Amount) * 2 * (r.inputOf i * hidden + hidden * hidden) * (seqLen : Amount) *
      (r.directions : Amount)

end Recurrent

/-- The operations of a pool: every value under each window of the output. -/
def poolOperations [Machine] (kernel inputSize channels : Amount) : Amount := do
  let outputSize : Amount := ← Amount.floorQuotient inputSize kernel
  channels * outputSize * outputSize * kernel * kernel

def Kind.gates : Kind → Int
  | .lstm => 4
  | .gru => 3
  | _ => 0

/-- The amount of trainable parameters of a layer. -/
def Kind.parameterAmount [Machine] (kind : Kind) (config : Config) : Amount :=
  let read := config.read
  match kind with
  | .embedding => read "vocab_size" * read "embedding_dim"
  | .linear =>
    read "input_dim" * read "output_dim" + config.readIf "use_bias" (read "output_dim")
  | .conv2d =>
    read "in_channels" * read "out_channels" * read "kernel_size" * read "kernel_size" +
      config.readIf "use_bias" (read "out_channels")
  | .lstm | .gru => do (← Recurrent.ofConfig config).parameters kind.gates
  | .transformer => do
    let model : Amount := ← read "d_model"
    let inner : Amount := ← read "d_ff"
    let feedForward : Amount := ← (model * inner + inner + inner * model + model : Amount)
    let norms : Amount := ← (2 * (model * 2) : Amount)
    attentionParameters model + feedForward + norms
  | .attention => attentionParameters (read "d_model")
  | .batchnorm => read "num_features" * 2
  | .layernorm => read "normalized_shape" * 2
  | .dropout | .maxpool2d | .avgpool2d | .relu | .softmax => 0

/-- The amount of operations of a forward pass through a layer. -/
def Kind.operationAmount [Machine] (kind : Kind) (config : Config) (shape : Shape) : Amount :=
  let read := config.read
  let size (d : Dimension) : Amount := shape.sizeFor kind d
  match kind with
  | .linear => 2 * read "input_dim" * read "output_dim"
  | .conv2d => do
    let kernel : Amount := ← read "kernel_size"
    2 * read "in_channels" * read "out_channels" * kernel * kernel * size .inputSize *
      size .inputSize
  | .lstm | .gru => do
    (← Recurrent.ofConfig config).operations kind.gates (shape.sizeFor kind .seqLen)
  | .transformer => do
    let model : Amount := ← read "d_model"
    let inner : Amount := ← read "d_ff"
    let perPlace := 2 * model * inner + 2 * inner * model
    let feedForward : Amount := ← (size .seqLen * perPlace : Amount)
    attentionOperations model (size .seqLen) + feedForward
  | .attention => attentionOperations (read "d_model") (size .seqLen)
  | .batchnorm => read "num_features" * size .batchSize * size .spatialSize * 4
  | .layernorm => read "normalized_shape" * size .batchSize * size .seqLen * 5
  | .maxpool2d | .avgpool2d =>
    poolOperations (read "kernel_size") (size .inputSize) (size .channels)
  | .embedding | .dropout | .relu | .softmax => 0

def Kind.parameters [Machine] (kind : Kind) (config : Config) : Except Fault Int :=
  (kind.parameterAmount config).count

def Kind.operations [Machine] (kind : Kind) (config : Config) (shape : Shape) : Except Fault Int :=
  (kind.operationAmount config shape).count

end LayerStack
