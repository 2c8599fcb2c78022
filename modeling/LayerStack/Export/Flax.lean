import LayerStack.Export.Call
import LayerStack.Export.Source
import LayerStack.Group.Named

/-! Export to JAX: a Flax module whose call passes a value through one layer after the other.  A
group of more than one layer becomes a loop; encoder blocks and recurrent stacks are modules of
their own that are written out before; and layers without parameters are plain functions, which the
name of their group follows as a comment. -/

namespace LayerStack.Export.Flax

/-- A call, what its answer is applied to, and the comment after it.  A plain function takes the
value among its arguments and is not applied. -/
structure Application where
  call : Call
  operands : Option String
  comment : Option String
  deriving DecidableEq

def Application.line (application : Application) : String :=
  let applied := match application.operands with
    | some operands => "(" ++ operands ++ ")"
    | none => ""
  let comment := match application.comment with
    | some comment => "  # " ++ comment
    | none => ""
  "x = " ++ application.call.text ++ applied ++ comment

/-- A module that is applied to the value. -/
def onValue (callee : String) (args : List Arg) : Application := ⟨⟨callee, args⟩, some "x", none⟩

/-- The call for a layer whose name is written as `name`, of a group that is called `label`. -/
def layer (kind : Kind) (config : Config) (name label : String) : Except Fault Application :=
  let named := Arg.keyedFixed "name" name
  match kind with
  | .embedding => do
    let vocabulary ← readSetting config "vocab_size"
    let width ← readSetting config "embedding_dim"
    return onValue "nn.Embed" [.keyed "num_embeddings" vocabulary, .keyed "features" width, named]
  | .linear => do
    let output ← readSetting config "output_dim"
    let bias ← readFlag config "use_bias"
    return onValue "nn.Dense" [.positional output, .keyed "use_bias" bias, named]
  | .conv2d => do
    let kernel ← config.read "kernel_size"
    let output ← readSetting config "out_channels"
    let kernel ← written (.ok kernel)
    let bias ← readFlag config "use_bias"
    return onValue "nn.Conv" [.keyed "features" output,
      .keyedFixed "kernel_size" (squareText kernel), .keyedFixed "padding" "\"SAME\"",
      .keyed "use_bias" bias, named]
  | .lstm | .gru => do
    let hidden ← readSetting config "hidden_size"
    let layers ← readSetting config "num_layers"
    let bidirectional ← readFlag config "bidirectional"
    return onValue "RecurrentStack" [.keyedFixed "cell" (quotedName kind.name),
      .keyed "hidden_size" hidden, .keyed "num_layers" layers,
      .keyed "bidirectional" bidirectional, named]
  | .transformer => do
    let model ← readSetting config "d_model"
    let heads ← readSetting config "num_heads"
    let inner ← readSetting config "d_ff"
    let dropout ← readSetting config "dropout"
    return ⟨⟨"TransformerBlock", [.keyed "d_model" model, .keyed "num_heads" heads,
      .keyed "d_ff" inner, .keyed "dropout" dropout, named]⟩, some "x, train", none⟩
  | .attention => do
    let heads ← readSetting config "num_heads"
    let model ← readSetting config "d_model"
    return onValue "nn.MultiHeadDotProductAttention"
      [.keyed "num_heads" heads, .keyed "qkv_features" model, named]
  | .batchnorm =>
    .ok (onValue "nn.BatchNorm" [.keyedFixed "use_running_average" "not train", named])
  | .layernorm => .ok (onValue "nn.LayerNorm" [named])
  | .dropout => do
    let rate ← readSetting config "rate"
    return onValue "nn.Dropout"
      [.keyed "rate" rate, .keyedFixed "deterministic" "not train", named]
  | .maxpool2d | .avgpool2d => do
    let kernel ← readSetting config "kernel_size"
    return ⟨⟨if kind = .maxpool2d then "nn.max_pool" else "nn.avg_pool", [.fixed "x",
      .keyedFixed "window_shape" (squareText kernel), .keyedFixed "strides" (squareText kernel)]⟩,
      none, some label⟩
  | .relu => .ok ⟨⟨"nn.relu", [.fixed "x"]⟩, none, some label⟩
  | .softmax => .ok ⟨⟨"nn.softmax", [.fixed "x", .keyedFixed "axis" "-1"]⟩, none, some label⟩

/-- The part of the program that stands for a group. -/
structure Step where
  kind : Kind
  count : Nat
  application : Application
  deriving DecidableEq

namespace Step

def ofUnit (unit : NamedGroup) : Except Fault Step := do
  let name := if unit.repeated then indexedName unit.name "i" else quotedName unit.name
  let application ← layer unit.group.kind unit.group.config name unit.name
  return ⟨unit.group.kind, unit.group.count, application⟩

def repeated (step : Step) : Bool := decide (1 < step.count)

def statement (step : Step) : Statement :=
  if step.repeated then
    .block ("for i in range(" ++ Decimal.natText step.count ++ "):") [.line step.application.line]
  else .line step.application.line

end Step

def transformerBlock : Statement :=
  .block "class TransformerBlock(nn.Module):" [
    .line "d_model: int",
    .line "num_heads: int",
    .line "d_ff: int",
    .line "dropout: float",
    .blank,
    .line "@nn.compact",
    .block "def __call__(self, x, train: bool = False):" [
      .line ("attn = nn.MultiHeadDotProductAttention(num_heads=self.num_heads, " ++
        "qkv_features=self.d_model)(x)"),
      .line "attn = nn.Dropout(rate=self.dropout, deterministic=not train)(attn)",
      .line "x = nn.LayerNorm()(x + attn)",
      .line "ffn = nn.relu(nn.Dense(self.d_ff)(x))",
      .line "ffn = nn.Dense(self.d_model)(ffn)",
      .line "ffn = nn.Dropout(rate=self.dropout, deterministic=not train)(ffn)",
      .line "return nn.LayerNorm()(x + ffn)"]]

def recurrentStack : Statement :=
  .block "class RecurrentStack(nn.Module):" [
    .line "cell: str",
    .line "hidden_size: int",
    .line "num_layers: int",
    .line "bidirectional: bool",
    .blank,
    .line "@nn.compact",
    .block "def __call__(self, x):" [
      .line "cell_type = nn.OptimizedLSTMCell if self.cell == \"lstm\" else nn.GRUCell",
      .block "for _ in range(self.num_layers):" [
        .line "forward = nn.RNN(cell_type(features=self.hidden_size))",
        .block "if self.bidirectional:" [
          .line ("backward = nn.RNN(cell_type(features=self.hidden_size), reverse=True, " ++
            "keep_order=True)"),
          .line "x = nn.Bidirectional(forward, backward)(x)"],
        .block "else:" [
          .line "x = forward(x)"]],
      .line "return x"]]

/-- The modules that a program uses, with two blank lines after each. -/
def helpers (steps : List Step) : List Statement :=
  (if steps.any fun step => decide (step.kind = .transformer) then
    [transformerBlock, .blank, .blank] else []) ++
  (if steps.any fun step => step.kind.isRecurrent then
    [recurrentStack, .blank, .blank] else [])

/-- The program that takes a value through the steps. -/
def program (steps : List Step) : List Statement :=
  Statement.heading Framework.jax.displayName ++ [
    .line "import jax",
    .line "import jax.numpy as jnp",
    .line "import flax.linen as nn",
    .blank,
    .blank] ++
  helpers steps ++ [
    .block "class LayerCalModel(nn.Module):" [
      .line "@nn.compact",
      .block "def __call__(self, x, train: bool = False):"
        (steps.map Step.statement ++ [.line "return x"])],
    .blank,
    .blank,
    .line "# Create model instance",
    .line "model = LayerCalModel()",
    .blank,
    .line "# Example usage:",
    .line "# variables = model.init(jax.random.PRNGKey(0), jnp.ones(input_shape))",
    .line "# output = model.apply(variables, x)"]

def source (units : List NamedGroup) : Except Fault String := do
  let steps ← units.mapM Step.ofUnit
  return Statement.programText (program steps)

end LayerStack.Export.Flax
