import LayerStack.Export.Call
import LayerStack.Export.Source
import LayerStack.Group.Named

/-! Export to PyTorch: a module class that declares one member for each named group and applies the
members in order.  A group of more than one layer becomes one member that holds them all. -/

namespace LayerStack.Export.Torch

/-- The kinds whose modules answer with a tuple, of which only the first part is passed on. -/
def answersTuple : Kind → Bool
  | .lstm | .gru | .attention => true
  | _ => false

def constructor (kind : Kind) (rank : Option Rank) (config : Config) : Except Fault Call :=
  match kind with
  | .embedding => do
    let vocabulary ← readSetting config "vocab_size"
    let width ← readSetting config "embedding_dim"
    return ⟨"nn.Embedding", [.positional vocabulary, .positional width]⟩
  | .linear => do
    let input ← readSetting config "input_dim"
    let output ← readSetting config "output_dim"
    let bias ← readFlag config "use_bias"
    return ⟨"nn.Linear", [.positional input, .positional output, .keyed "bias" bias]⟩
  | .conv2d => do
    let input ← readSetting config "in_channels"
    let output ← readSetting config "out_channels"
    let kernel ← readSetting config "kernel_size"
    let bias ← readFlag config "use_bias"
    return ⟨"nn.Conv2d", [.positional input, .positional output, .keyed "kernel_size" kernel,
      .keyedFixed "padding" "\"same\"", .keyed "bias" bias]⟩
  | .lstm | .gru => do
    let input ← readSetting config "input_size"
    let hidden ← readSetting config "hidden_size"
    let layers ← readSetting config "num_layers"
    let bidirectional ← readFlag config "bidirectional"
    return ⟨if kind = .lstm then "nn.LSTM" else "nn.GRU", [.positional input, .positional hidden,
      .keyed "num_layers" layers, .keyed "bidirectional" bidirectional,
      .keyedFixed "batch_first" "True"]⟩
  | .transformer => do
    let model ← readSetting config "d_model"
    let heads ← readSetting config "num_heads"
    let inner ← readSetting config "d_ff"
    let dropout ← readSetting config "dropout"
    return ⟨"nn.TransformerEncoderLayer", [.keyed "d_model" model, .keyed "nhead" heads,
      .keyed "dim_feedforward" inner, .keyed "dropout" dropout,
      .keyedFixed "batch_first" "True"]⟩
  | .attention => do
    let model ← readSetting config "d_model"
    let heads ← readSetting config "num_heads"
    return ⟨"nn.MultiheadAttention",
      [.positional model, .positional heads, .keyedFixed "batch_first" "True"]⟩
  | .batchnorm => do
    let features ← readSetting config "num_features"
    return ⟨if rank = some .spatial then "nn.BatchNorm2d" else "nn.BatchNorm1d",
      [.positional features]⟩
  | .layernorm => do
    let features ← readSetting config "normalized_shape"
    return ⟨"nn.LayerNorm", [.positional features]⟩
  | .dropout => do
    let rate ← readSetting config "rate"
    return ⟨"nn.Dropout", [.keyed "p" rate]⟩
  | .maxpool2d => do
    let kernel ← readSetting config "kernel_size"
    return ⟨"nn.MaxPool2d", [.keyed "kernel_size" kernel]⟩
  | .avgpool2d => do
    let kernel ← readSetting config "kernel_size"
    return ⟨"nn.AvgPool2d", [.keyed "kernel_size" kernel]⟩
  | .relu => .ok ⟨"nn.ReLU", []⟩
  | .softmax => .ok ⟨"nn.Softmax", [.keyedFixed "dim" "-1"]⟩

/-- The member of a class that holds the layers of a group. -/
structure Member where
  name : String
  kind : Kind
  count : Nat
  call : Call
  deriving DecidableEq

namespace Member

def ofUnit (unit : NamedGroup) : Except Fault Member := do
  let call ← constructor unit.group.kind unit.rank unit.group.config
  return ⟨unit.name, unit.group.kind, unit.group.count, call⟩

def repeated (member : Member) : Bool := decide (1 < member.count)

/-- What holds the layers of a repeated member: a list where each answer has to be taken apart, a
sequence otherwise. -/
def container (member : Member) : String :=
  if answersTuple member.kind then "nn.ModuleList" else "nn.Sequential"

/-- What stands before the bracket of a container: a sequence takes its layers one by one. -/
def containerOpening (member : Member) : String :=
  member.container ++ if answersTuple member.kind then "([" else "(*["

def declaration (member : Member) : Statement :=
  if member.repeated then
    .bracket ("self." ++ member.name ++ " = " ++ member.containerOpening)
      [member.call.text, "for _ in range(" ++ Decimal.natText member.count ++ ")"] "])"
  else .line ("self." ++ member.name ++ " = " ++ member.call.text)

/-- The statement that passes the value on through `callee`. -/
def callLine (kind : Kind) (callee : String) : String :=
  match kind with
  | .lstm | .gru => "x, _ = " ++ callee ++ "(x)"
  | .attention => "x, _ = " ++ callee ++ "(x, x, x)"
  | _ => "x = " ++ callee ++ "(x)"

/-- The use of a member in the forward pass. -/
def application (member : Member) : Statement :=
  if member.repeated && answersTuple member.kind then
    .block ("for layer in self." ++ member.name ++ ":") [.line (callLine member.kind "layer")]
  else .line (callLine member.kind ("self." ++ member.name))

end Member

/-- The program that declares and applies members in order. -/
def program (members : List Member) : List Statement :=
  Statement.heading Framework.pytorch.displayName ++ [
    .line "import torch",
    .line "import torch.nn as nn",
    .blank,
    .blank,
    .block "class LayerCalModel(nn.Module):" [
      .block "def __init__(self):"
        (.line "super().__init__()" :: members.map Member.declaration),
      .blank,
      .block "def forward(self, x):"
        (members.map Member.application ++ [.line "return x"])],
    .blank,
    .blank,
    .line "# Create model instance",
    .line "model = LayerCalModel()",
    .line "print(model)",
    .line "print(f\"Parameters: \x7bsum(p.numel() for p in model.parameters()):,\x7d\")"]

def source (units : List NamedGroup) : Except Fault String := do
  let members ← units.mapM Member.ofUnit
  return Statement.programText (program members)

end LayerStack.Export.Torch
