import LayerStack.Export.Call
import LayerStack.Export.Source
import LayerStack.Group.Named

/-! Export to TensorFlow: a function that builds a Keras model by passing a value through one layer
after the other.  A group of more than one layer becomes a loop, and encoder blocks and recurrent
stacks call helpers that are written out before. -/

namespace LayerStack.Export.Keras

/-- The shape of the input that the first group takes, as arguments of the input layer. -/
def inputSpec (unit : Option NamedGroup) : Except Fault String :=
  match unit with
  | none => .ok "shape=(None,)"
  | some unit =>
    let config := unit.group.config
    match unit.group.kind with
    | .embedding => .ok "shape=(None,), dtype=\"int32\""
    | .linear => do
      return "shape=(" ++ (← readSetting config "input_dim").text.shown ++ ",)"
    | .conv2d => do
      return "shape=(224, 224, " ++ (← readSetting config "in_channels").text.shown ++ ")"
    | .maxpool2d | .avgpool2d => .ok "shape=(224, 224, 3)"
    | .lstm | .gru => do
      return "shape=(None, " ++ (← readSetting config "input_size").text.shown ++ ")"
    | .transformer | .attention => do
      return "shape=(None, " ++ (← readSetting config "d_model").text.shown ++ ")"
    | .batchnorm => do
      return "shape=(" ++ (← readSetting config "num_features").text.shown ++ ",)"
    | .layernorm => do
      return "shape=(None, " ++ (← readSetting config "normalized_shape").text.shown ++ ")"
    | .dropout | .relu | .softmax => .ok "shape=(None,)"

/-- The width of an attention head. -/
def headWidth (config : Config) : Amount :=
  Amount.floorQuotient (config.read "d_model") (config.read "num_heads")

/-- A call, and what its answer is applied to; a helper takes the value among its arguments and is
not applied. -/
structure Application where
  call : Call
  operands : Option String
  deriving DecidableEq

def Application.line (application : Application) : String :=
  "x = " ++ application.call.text ++
    match application.operands with
    | some operands => "(" ++ operands ++ ")"
    | none => ""

/-- The call for a layer whose name is written as `name`. -/
def layer (kind : Kind) (config : Config) (name : String) : Except Fault Application :=
  let named := Arg.keyedFixed "name" name
  match kind with
  | .embedding => do
    let vocabulary ← readSetting config "vocab_size"
    let width ← readSetting config "embedding_dim"
    return ⟨⟨"layers.Embedding", [.positional vocabulary, .positional width, named]⟩, some "x"⟩
  | .linear => do
    let output ← readSetting config "output_dim"
    let bias ← readFlag config "use_bias"
    return ⟨⟨"layers.Dense", [.positional output, .keyed "use_bias" bias, named]⟩, some "x"⟩
  | .conv2d => do
    let output ← readSetting config "out_channels"
    let kernel ← readSetting config "kernel_size"
    let bias ← readFlag config "use_bias"
    return ⟨⟨"layers.Conv2D", [.positional output, .positional kernel,
      .keyedFixed "padding" "\"same\"", .keyed "use_bias" bias, named]⟩, some "x"⟩
  | .lstm | .gru => do
    let hidden ← readSetting config "hidden_size"
    let layers ← readSetting config "num_layers"
    let bidirectional ← readFlag config "bidirectional"
    return ⟨⟨"recurrent_stack", [.fixed "x",
      .fixed (if kind = .lstm then "layers.LSTM" else "layers.GRU"), .positional hidden,
      .keyed "num_layers" layers, .keyed "bidirectional" bidirectional, named]⟩, none⟩
  | .transformer => do
    let model ← readSetting config "d_model"
    let heads ← readSetting config "num_heads"
    let inner ← readSetting config "d_ff"
    let dropout ← readSetting config "dropout"
    return ⟨⟨"transformer_block", [.fixed "x", .keyed "d_model" model, .keyed "num_heads" heads,
      .keyed "d_ff" inner, .keyed "dropout" dropout, named]⟩, none⟩
  | .attention => do
    let width ← headWidth config
    let heads ← readSetting config "num_heads"
    let width ← written (.ok width)
    return ⟨⟨"layers.MultiHeadAttention",
      [.keyed "num_heads" heads, .keyed "key_dim" width, named]⟩, some "x, x"⟩
  | .batchnorm => .ok ⟨⟨"layers.BatchNormalization", [named]⟩, some "x"⟩
  | .layernorm => .ok ⟨⟨"layers.LayerNormalization", [named]⟩, some "x"⟩
  | .dropout => do
    let rate ← readSetting config "rate"
    return ⟨⟨"layers.Dropout", [.positional rate, named]⟩, some "x"⟩
  | .maxpool2d => do
    let kernel ← readSetting config "kernel_size"
    return ⟨⟨"layers.MaxPooling2D", [.keyed "pool_size" kernel, named]⟩, some "x"⟩
  | .avgpool2d => do
    let kernel ← readSetting config "kernel_size"
    return ⟨⟨"layers.AveragePooling2D", [.keyed "pool_size" kernel, named]⟩, some "x"⟩
  | .relu => .ok ⟨⟨"layers.ReLU", [named]⟩, some "x"⟩
  | .softmax => .ok ⟨⟨"layers.Softmax", [named]⟩, some "x"⟩

/-- The part of the program that stands for a group. -/
structure Step where
  kind : Kind
  count : Nat
  application : Application
  deriving DecidableEq

namespace Step

def ofUnit (unit : NamedGroup) : Except Fault Step := do
  let name := if unit.repeated then indexedName unit.name "i" else quotedName unit.name
  let application ← layer unit.group.kind unit.group.config name
  return ⟨unit.group.kind, unit.group.count, application⟩

def repeated (step : Step) : Bool := decide (1 < step.count)

def statement (step : Step) : Statement :=
  if step.repeated then
    .block ("for i in range(" ++ Decimal.natText step.count ++ "):") [.line step.application.line]
  else .line step.application.line

end Step

def transformerBlock : Statement :=
  .block "def transformer_block(x, d_model, num_heads, d_ff, dropout, name):" [
    .bracket "attn = layers.MultiHeadAttention("
      ["num_heads=num_heads, key_dim=d_model // num_heads, dropout=dropout, " ++
        "name=f\"\x7bname\x7d_mha\""]
      ")(x, x)",
    .line "x = layers.LayerNormalization(name=f\"\x7bname\x7d_ln1\")(x + attn)",
    .line "ffn = layers.Dense(d_ff, activation=\"relu\", name=f\"\x7bname\x7d_ffn1\")(x)",
    .line "ffn = layers.Dense(d_model, name=f\"\x7bname\x7d_ffn2\")(ffn)",
    .line "ffn = layers.Dropout(dropout, name=f\"\x7bname\x7d_drop\")(ffn)",
    .line "return layers.LayerNormalization(name=f\"\x7bname\x7d_ln2\")(x + ffn)"]

def recurrentStack : Statement :=
  .block "def recurrent_stack(x, cell, units, num_layers, bidirectional, name):" [
    .block "for i in range(num_layers):" [
      .line "rnn = cell(units, return_sequences=True, name=f\"\x7bname\x7d_l\x7bi\x7d\")",
      .block "if bidirectional:" [
        .line "rnn = layers.Bidirectional(rnn, name=f\"\x7bname\x7d_bi\x7bi\x7d\")"],
      .line "x = rnn(x)"],
    .line "return x"]

/-- The helpers that a program calls, with two blank lines after each. -/
def helpers (steps : List Step) : List Statement :=
  (if steps.any fun step => decide (step.kind = .transformer) then
    [transformerBlock, .blank, .blank] else []) ++
  (if steps.any fun step => step.kind.isRecurrent then
    [recurrentStack, .blank, .blank] else [])

/-- The program that takes the given input through the steps. -/
def program (input : String) (steps : List Step) : List Statement :=
  Statement.heading Framework.tensorflow.displayName ++ [
    .line "import tensorflow as tf",
    .line "from tensorflow.keras import layers",
    .blank,
    .blank] ++
  helpers steps ++ [
    .block "def build_model():"
      ([.line ("inputs = tf.keras.Input(" ++ input ++ ")"), .line "x = inputs"] ++
        steps.map Step.statement ++
        [.line "return tf.keras.Model(inputs, x, name=\"layercal_model\")"]),
    .blank,
    .blank,
    .line "model = build_model()",
    .line "model.summary()"]

def source (units : List NamedGroup) : Except Fault String := do
  let input ← inputSpec units.head?
  let steps ← units.mapM Step.ofUnit
  return Statement.programText (program input steps)

end LayerStack.Export.Keras
