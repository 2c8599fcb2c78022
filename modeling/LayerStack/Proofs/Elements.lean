import LayerStack.Proofs.FieldValues
import LayerStack.Proofs.ForwardPass
import LayerStack.Proofs.WrittenCalls

/-! The elements that a module class declares, read back from its source.  An element is read with
every setting that it was written with, so that nothing of a group but the ids of its layers and
its position is lost: the kind, the configuration and the count can be told from the source. -/

namespace LayerStack

namespace Export

def Atom.value? : Atom → Option Value
  | .setting value => some value
  | .source text => Value.ofSource? text.toList

/-- An argument that is a word and reads back as its value. -/
structure Atom.IsReadable (atom : Atom) : Prop where
  word : IsWord atom.text
  value : Value.ofSource? atom.text.toList = atom.value?

instance (text : String) : Decidable (Atom.source text).IsReadable :=
  decidable_of_iff (IsWord text) ⟨fun h => ⟨h, rfl⟩, fun h => h.word⟩

theorem Atom.isReadable_of_number? {value : Value} {x : Number} (h : value.number? = some x)
    (hread : Value.ofSource? value.text.shown.toList = some value) :
    (Atom.setting value).IsReadable :=
  ⟨Value.isWord h hread, hread⟩

theorem Atom.isReadable_int (n : Int) : (Atom.setting (.int n)).IsReadable :=
  isReadable_of_number? rfl (Value.ofSource?_int n)

theorem Atom.isReadable_bool (b : Bool) : (Atom.setting (.bool b)).IsReadable :=
  isReadable_of_number? rfl (Value.ofSource?_bool b)

theorem Atom.isReadable_number {x : Number} (h : x.isFinite = true) :
    (Atom.setting (.num x)).IsReadable :=
  isReadable_of_number? rfl (Value.ofSource?_number h)

def Arg.read? (arg : Arg) : Option (Option String × Value) :=
  arg.value.value?.map fun value => (arg.keyword, value)

def WrittenArg.read? (arg : WrittenArg) : Option (Option String × Value) :=
  (Value.ofSource? arg.value.toList).map fun value => (arg.keyword, value)

theorem Arg.mapM_written {args : List Arg} (h : ∀ arg ∈ args, arg.value.IsReadable) :
    (args.map Arg.written).mapM WrittenArg.read? = args.mapM Arg.read? := by
  induction args with
  | nil => rfl
  | cons arg rest ih =>
    rw [List.forall_mem_cons] at h
    have harg : arg.written.read? = arg.read? := by
      rw [WrittenArg.read?, Arg.read?, ← h.1.value]
      rfl
    rw [List.map_cons, List.mapM_cons, List.mapM_cons, harg, ih h.2]

namespace Torch

/-- An element of a member: the class that makes it, with its settings. -/
inductive Element where
  | embedding (rows width : Int)
  | linear (input output : Int) (bias : Bool)
  | conv2d (input output kernel : Int) (bias : Bool)
  | lstm (input hidden layers : Int) (bidirectional : Bool)
  | gru (input hidden layers : Int) (bidirectional : Bool)
  | encoderLayer (model heads inner : Int) (rate : Number)
  | attention (model heads : Int)
  | batchNorm1d (features : Int)
  | batchNorm2d (features : Int)
  | layerNorm (features : Int)
  | dropout (rate : Number)
  | maxPool2d (kernel : Int)
  | avgPool2d (kernel : Int)
  | relu
  | softmax
  deriving DecidableEq

namespace Element

/-- The element that a call of a class makes. -/
def ofCall? (callee : String) (args : List (Option String × Value)) : Option Element :=
  match callee, args with
  | "nn.Embedding", [(none, .num (.int rows)), (none, .num (.int width))] =>
    some (.embedding rows width)
  | "nn.Linear", [(none, .num (.int input)), (none, .num (.int output)),
      (some "bias", .bool bias)] => some (.linear input output bias)
  | "nn.Conv2d", [(none, .num (.int input)), (none, .num (.int output)),
      (some "kernel_size", .num (.int kernel)), (some "padding", .str _),
      (some "bias", .bool bias)] => some (.conv2d input output kernel bias)
  | "nn.LSTM", [(none, .num (.int input)), (none, .num (.int hidden)),
      (some "num_layers", .num (.int layers)), (some "bidirectional", .bool bidirectional),
      (some "batch_first", .bool _)] => some (.lstm input hidden layers bidirectional)
  | "nn.GRU", [(none, .num (.int input)), (none, .num (.int hidden)),
      (some "num_layers", .num (.int layers)), (some "bidirectional", .bool bidirectional),
      (some "batch_first", .bool _)] => some (.gru input hidden layers bidirectional)
  | "nn.TransformerEncoderLayer", [(some "d_model", .num (.int model)),
      (some "nhead", .num (.int heads)), (some "dim_feedforward", .num (.int inner)),
      (some "dropout", .num rate), (some "batch_first", .bool _)] =>
    some (.encoderLayer model heads inner rate)
  | "nn.MultiheadAttention", [(none, .num (.int model)), (none, .num (.int heads)),
      (some "batch_first", .bool _)] => some (.attention model heads)
  | "nn.BatchNorm1d", [(none, .num (.int features))] => some (.batchNorm1d features)
  | "nn.BatchNorm2d", [(none, .num (.int features))] => some (.batchNorm2d features)
  | "nn.LayerNorm", [(none, .num (.int features))] => some (.layerNorm features)
  | "nn.Dropout", [(some "p", .num rate)] => some (.dropout rate)
  | "nn.MaxPool2d", [(some "kernel_size", .num (.int kernel))] => some (.maxPool2d kernel)
  | "nn.AvgPool2d", [(some "kernel_size", .num (.int kernel))] => some (.avgPool2d kernel)
  | "nn.ReLU", [] => some .relu
  | "nn.Softmax", [(some "dim", .num (.int _))] => some .softmax
  | _, _ => none

def ofText? (cs : List Char) : Option Element := do
  let call ← WrittenCall.ofText? cs
  let args ← call.args.mapM WrittenArg.read?
  if call.rest = [] then ofCall? call.callee args else none

/-- The kind of the layers that are written as an element. -/
def kind : Element → Kind
  | .embedding .. => .embedding
  | .linear .. => .linear
  | .conv2d .. => .conv2d
  | .lstm .. => .lstm
  | .gru .. => .gru
  | .encoderLayer .. => .transformer
  | .attention .. => .attention
  | .batchNorm1d _ | .batchNorm2d _ => .batchnorm
  | .layerNorm _ => .layernorm
  | .dropout _ => .dropout
  | .maxPool2d _ => .maxpool2d
  | .avgPool2d _ => .avgpool2d
  | .relu => .relu
  | .softmax => .softmax

/-- The configuration of the layers that are written as an element. -/
def config : Element → Config
  | .embedding rows width => ⟨[("vocab_size", .int rows), ("embedding_dim", .int width)]⟩
  | .linear input output bias =>
    ⟨[("input_dim", .int input), ("output_dim", .int output), ("use_bias", .bool bias)]⟩
  | .conv2d input output kernel bias =>
    ⟨[("in_channels", .int input), ("out_channels", .int output), ("kernel_size", .int kernel),
      ("use_bias", .bool bias)]⟩
  | .lstm input hidden layers bidirectional | .gru input hidden layers bidirectional =>
    ⟨[("input_size", .int input), ("hidden_size", .int hidden), ("num_layers", .int layers),
      ("bidirectional", .bool bidirectional)]⟩
  | .encoderLayer model heads inner rate =>
    ⟨[("d_model", .int model), ("num_heads", .int heads), ("d_ff", .int inner),
      ("dropout", .num rate)]⟩
  | .attention model heads => ⟨[("d_model", .int model), ("num_heads", .int heads)]⟩
  | .batchNorm1d features | .batchNorm2d features => ⟨[("num_features", .int features)]⟩
  | .layerNorm features => ⟨[("normalized_shape", .int features)]⟩
  | .dropout rate => ⟨[("rate", .num rate)]⟩
  | .maxPool2d kernel | .avgPool2d kernel => ⟨[("kernel_size", .int kernel)]⟩
  | .relu | .softmax => ⟨[]⟩

def call : Element → Call
  | .embedding rows width => ⟨"nn.Embedding", [.positional (.int rows), .positional (.int width)]⟩
  | .linear input output bias =>
    ⟨"nn.Linear", [.positional (.int input), .positional (.int output),
      .keyed "bias" (.bool bias)]⟩
  | .conv2d input output kernel bias =>
    ⟨"nn.Conv2d", [.positional (.int input), .positional (.int output),
      .keyed "kernel_size" (.int kernel), .keyedFixed "padding" "\"same\"",
      .keyed "bias" (.bool bias)]⟩
  | .lstm input hidden layers bidirectional =>
    ⟨"nn.LSTM", [.positional (.int input), .positional (.int hidden),
      .keyed "num_layers" (.int layers), .keyed "bidirectional" (.bool bidirectional),
      .keyedFixed "batch_first" "True"]⟩
  | .gru input hidden layers bidirectional =>
    ⟨"nn.GRU", [.positional (.int input), .positional (.int hidden),
      .keyed "num_layers" (.int layers), .keyed "bidirectional" (.bool bidirectional),
      .keyedFixed "batch_first" "True"]⟩
  | .encoderLayer model heads inner rate =>
    ⟨"nn.TransformerEncoderLayer", [.keyed "d_model" (.int model), .keyed "nhead" (.int heads),
      .keyed "dim_feedforward" (.int inner), .keyed "dropout" (.num rate),
      .keyedFixed "batch_first" "True"]⟩
  | .attention model heads =>
    ⟨"nn.MultiheadAttention", [.positional (.int model), .positional (.int heads),
      .keyedFixed "batch_first" "True"]⟩
  | .batchNorm1d features => ⟨"nn.BatchNorm1d", [.positional (.int features)]⟩
  | .batchNorm2d features => ⟨"nn.BatchNorm2d", [.positional (.int features)]⟩
  | .layerNorm features => ⟨"nn.LayerNorm", [.positional (.int features)]⟩
  | .dropout rate => ⟨"nn.Dropout", [.keyed "p" (.num rate)]⟩
  | .maxPool2d kernel => ⟨"nn.MaxPool2d", [.keyed "kernel_size" (.int kernel)]⟩
  | .avgPool2d kernel => ⟨"nn.AvgPool2d", [.keyed "kernel_size" (.int kernel)]⟩
  | .relu => ⟨"nn.ReLU", []⟩
  | .softmax => ⟨"nn.Softmax", [.keyedFixed "dim" "-1"]⟩

/-- The element for a kind in a rank with the values of its fields. -/
def ofFields (kind : Kind) (rank : Option Rank) (config : Config) : Element :=
  match kind with
  | .embedding => .embedding (config.whole "vocab_size") (config.whole "embedding_dim")
  | .linear =>
    .linear (config.whole "input_dim") (config.whole "output_dim") (config.flag "use_bias")
  | .conv2d =>
    .conv2d (config.whole "in_channels") (config.whole "out_channels") (config.whole "kernel_size")
      (config.flag "use_bias")
  | .lstm =>
    .lstm (config.whole "input_size") (config.whole "hidden_size") (config.whole "num_layers")
      (config.flag "bidirectional")
  | .gru =>
    .gru (config.whole "input_size") (config.whole "hidden_size") (config.whole "num_layers")
      (config.flag "bidirectional")
  | .transformer =>
    .encoderLayer (config.whole "d_model") (config.whole "num_heads") (config.whole "d_ff")
      (config.number "dropout")
  | .attention => .attention (config.whole "d_model") (config.whole "num_heads")
  | .batchnorm =>
    if rank = some .spatial then .batchNorm2d (config.whole "num_features")
    else .batchNorm1d (config.whole "num_features")
  | .layernorm => .layerNorm (config.whole "normalized_shape")
  | .dropout => .dropout (config.number "rate")
  | .maxpool2d => .maxPool2d (config.whole "kernel_size")
  | .avgpool2d => .avgPool2d (config.whole "kernel_size")
  | .relu => .relu
  | .softmax => .softmax

/-- The share of values that an element drops, if it drops any. -/
def rate? : Element → Option Number
  | .encoderLayer _ _ _ rate | .dropout rate => some rate
  | _ => none

end Element

variable {layer : Layer}

theorem constructor_eq (h : layer.Configured) (rank : Option Rank) :
    constructor layer.kind rank layer.config =
      .ok (Element.ofFields layer.kind rank layer.config).call := by
  have hread := h.read_eq
  have hwritten := fun field hfield => (h.holds_valueIn field hfield).written_eq
  obtain ⟨id, kind, config⟩ := layer
  cases kind <;>
    simp [Kind.fields, Kind.attentionFields, Kind.recurrentFields, Field.whole, Field.flag,
      Field.rate, FieldRange.valueIn] at hread hwritten <;>
    simp [constructor, readFlag, Config.readFlag, readSetting, hread, hwritten, Except.map,
      Element.ofFields, Element.call, Value.isGiven]
  split <;> rfl

namespace Element

theorem kind_ofFields (kind : Kind) (rank : Option Rank) (config : Config) :
    (ofFields kind rank config).kind = kind := by
  cases kind <;> (try rfl)
  simp only [ofFields]
  split <;> rfl

theorem config_ofFields (h : layer.Configured) (rank : Option Rank) :
    (ofFields layer.kind rank layer.config).config = layer.config := by
  refine Eq.trans ?_ h.config_eq.symm
  obtain ⟨id, kind, config⟩ := layer
  cases kind <;> (try rfl)
  simp only [ofFields]
  split <;> rfl

/-! ### Reading an element -/

theorem ofText?_text {call : Call} (hcallee : '(' ∉ call.callee.toList)
    (hargs : ∀ arg ∈ call.args, (∀ keyword ∈ arg.keyword, IsWord keyword) ∧ arg.value.IsReadable) :
    ofText? call.text.toList = (call.args.mapM Arg.read?).bind (ofCall? call.callee) := by
  have hplain : ∀ arg ∈ call.args, arg.IsPlain := fun arg harg =>
    ⟨(hargs arg harg).1, (hargs arg harg).2.word⟩
  have hcall := WrittenCall.ofText?_append hcallee hplain []
  rw [List.append_nil] at hcall
  have hread := Arg.mapM_written fun arg harg => (hargs arg harg).2
  simp only [ofText?, hcall, Option.bind_eq_bind, Option.bind_some, if_true, hread]

theorem ofText?_call (element : Element) (h : ∀ rate ∈ element.rate?, rate.isFinite = true) :
    ofText? element.call.text.toList = some element := by
  rw [ofText?_text]
  · cases element <;> rfl
  · cases element <;> simp +decide [call]
  · cases element <;>
      simp only [rate?, Option.mem_def, Option.some.injEq, forall_eq'] at h <;>
      simp +decide [call, Arg.positional, Arg.keyed, Arg.keyedFixed, Atom.isReadable_int,
        Atom.isReadable_bool, Atom.isReadable_number, h]

theorem isFinite_rate_ofFields (h : layer.Configured) (rank : Option Rank) :
    ∀ rate ∈ (ofFields layer.kind rank layer.config).rate?, rate.isFinite = true := by
  have hholds := h.holds_valueIn
  obtain ⟨id, kind, config⟩ := layer
  cases kind <;>
    simp [Kind.fields, Kind.attentionFields, Kind.recurrentFields, Field.whole, Field.flag,
      Field.rate, FieldRange.valueIn] at hholds <;>
    simp [ofFields, rate?, hholds]
  by_cases hrank : rank = some .spatial <;> simp [hrank]

end Element

/-! ### Reading the members -/

/-- An element that a module class holds a number of times. -/
structure Held where
  element : Element
  count : Nat
  deriving DecidableEq

def Held.ofUnit (unit : NamedGroup) : Held :=
  ⟨Element.ofFields unit.group.kind unit.rank unit.group.config, unit.group.count⟩

def Held.ofDeclared? (declared : Outline.Declared) : Option Held :=
  (Element.ofText? declared.element).map fun element => ⟨element, declared.count⟩

/-- What the class of a program holds, in the order of its declarations. -/
def held? (source : String) : Option (List Held) := do
  let init ← Outline.under? ["class LayerCalModel(nn.Module):", "def __init__(self):"]
    (Outline.ofText source)
  match init with
  | .node _ text [] :: declarations =>
    if text = "super().__init__()".toList then
      (← Outline.declared? declarations).mapM Held.ofDeclared?
    else none
  | _ => none

theorem held?_program {members : List Member} (h : ∀ member ∈ members, member.Readable) :
    held? (Statement.programText (program members)) =
      (members.map Member.declared).mapM Held.ofDeclared? := by
  have hne : program members ≠ [] := by simp [program, Statement.heading]
  simp only [held?, Statement.ofText_programText hne (isLine_program h), under?_init,
    Option.bind_eq_bind, Option.bind_some, if_true, declared?_declarations h]

theorem Held.ofDeclared?_declared {unit : NamedGroup} (h : unit.Sound) {member : Member}
    (hmember : Member.ofUnit unit = .ok member) :
    ofDeclared? member.declared = some (ofUnit unit) := by
  obtain ⟨-, -, hcount, hcall⟩ := Member.ofUnit_eq_ok hmember
  have hconfigured := h.configured default
  rw [constructor_eq hconfigured, Except.ok.injEq] at hcall
  have hfinite := Element.isFinite_rate_ofFields hconfigured unit.rank
  rw [ofDeclared?, Member.declared, ← hcall, Element.ofText?_call _ hfinite, hcount]
  rfl

/-- What the program for named groups holds is read back: one element for each group, with its
count. -/
theorem held?_source {units : List NamedGroup} (h : ∀ unit ∈ units, unit.Sound) :
    ∃ source, Torch.source units = .ok source ∧ held? source = some (units.map Held.ofUnit) := by
  obtain ⟨members, hmembers, hreadable, hsource⟩ := members_ok h
  refine ⟨_, hsource, ?_⟩
  rw [held?_program hreadable]
  clear hsource hreadable
  induction hmembers with
  | nil => rfl
  | cons hmember _ ih =>
    rw [List.forall_mem_cons] at h
    rw [List.map_cons, List.mapM_cons, Held.ofDeclared?_declared h.1 hmember, ih h.2]
    rfl

/-- Layers that hold their fields have a program, from which what it holds for their groups is
read. -/
theorem held?_ofLayers {layers : List Layer} (h : ∀ layer ∈ layers, layer.Configured) :
    ∃ units source, NamedGroup.ofLayers layers = .ok units ∧
      units.map NamedGroup.group = Group.ofLayers layers ∧ (∀ unit ∈ units, unit.Sound) ∧
      Program.ofLayers (.str Framework.pytorch.name) layers = .ok ⟨.pytorch, source⟩ ∧
      held? source = some (units.map Held.ofUnit) := by
  obtain ⟨units, hunits, hgroups, -, hsound⟩ := NamedGroup.ofLayers_sound h
  obtain ⟨source, hsource, hheld⟩ := held?_source hsound
  refine ⟨units, source, hunits, hgroups, hsound, ?_, hheld⟩
  simp [Program.ofLayers, hunits, Framework.ofValue_name, Framework.source, hsource]

/-- The kind, the configuration and the count of every group that a program was made from. -/
def groups? (source : String) : Option (List (Kind × Config × Nat)) :=
  (held? source).map fun helds =>
    helds.map fun held => (held.element.kind, held.element.config, held.count)

end Torch

end Export

/-- What a group is apart from the ids of its layers and its position. -/
def Group.content (group : Group) : Kind × Config × Nat := (group.kind, group.config, group.count)

namespace Export.Torch

theorem groups?_ofLayers {layers : List Layer}
    (h : ∀ layer ∈ layers, layer.Configured) : ∃ source,
      Program.ofLayers (.str Framework.pytorch.name) layers = .ok ⟨.pytorch, source⟩ ∧
      groups? source = some ((Group.ofLayers layers).map Group.content) := by
  obtain ⟨units, source, -, hgroups, hsound, hsource, hheld⟩ := held?_ofLayers h
  refine ⟨source, hsource, ?_⟩
  rw [groups?, hheld, ← hgroups, Option.map_some, List.map_map, List.map_map, Option.some.injEq]
  refine List.map_congr_left fun unit hunit => ?_
  have hconfig := Element.config_ofFields ((hsound unit hunit).configured default) unit.rank
  simp [Held.ofUnit, Group.content, Element.kind_ofFields, hconfig]

end Export.Torch

open Export

/-- Models of sessions are told apart by their programs, up to the ids of their layers: the groups
are read back from the program, so that two models with one program have equal groups. -/
theorem Model.Reachable.groups_recovered :
    (∀ model : Model, model.Reachable → ∃ source,
      Program.ofLayers (.str Framework.pytorch.name) model.layers = .ok ⟨.pytorch, source⟩ ∧
      Torch.groups? source = some ((Group.ofLayers model.layers).map Group.content)) ∧
    ∀ a b : Model, a.Reachable → b.Reachable →
      Program.ofLayers (.str Framework.pytorch.name) a.layers =
        Program.ofLayers (.str Framework.pytorch.name) b.layers →
      List.Forall₂ (fun g h => g.kind = h.kind ∧ g.config = h.config ∧ g.count = h.count)
        (Group.ofLayers a.layers) (Group.ofLayers b.layers) := by
  refine ⟨fun model h => Torch.groups?_ofLayers h.configured, fun a b ha hb hprogram => ?_⟩
  obtain ⟨source, hsource, hgroups⟩ := Torch.groups?_ofLayers ha.configured
  obtain ⟨other, hother, hothers⟩ := Torch.groups?_ofLayers hb.configured
  obtain rfl : source = other := by simpa [hsource, hother] using hprogram
  have hcontent : (Group.ofLayers a.layers).map Group.content =
      (Group.ofLayers b.layers).map Group.content := by simpa [hgroups] using hothers
  rw [← List.forall₂_eq_eq_eq, List.forall₂_map_left_iff, List.forall₂_map_right_iff] at hcontent
  refine hcontent.imp fun g h hgh => ?_
  simpa [Group.content] using hgh

/-- Two alike layers, a third one, and a layer between them that is taken out again. -/
def plainSession : List Edit := [
  .add (.str "linear") none none,
  .add (.str "relu") none none,
  .add (.str "linear") none none,
  .add (.str "batchnorm") none none,
  .delete (some "2")]

/-- The layers that the other session ends with, under ids of their own. -/
def renamedSession : List Edit := [
  .add (.str "batchnorm") none (some "c"),
  .add (.str "linear") (some 0) (some "a"),
  .add (.str "linear") (some 0) (some "b")]

def plainModel : Model := ((Workspace.start .counting).run plainSession).model

def renamedModel : Model := ((Workspace.start .counting).run renamedSession).model

theorem groups_recovered_renamedModel :
    plainModel.Reachable ∧ renamedModel.Reachable ∧
      Program.ofLayers (.str Framework.pytorch.name) plainModel.layers =
        Program.ofLayers (.str Framework.pytorch.name) renamedModel.layers ∧
      List.Forall₂ (fun g h => g.kind = h.kind ∧ g.config = h.config ∧ g.count = h.count)
        (Group.ofLayers plainModel.layers) (Group.ofLayers renamedModel.layers) := by
  have hplain : plainModel.Reachable := ⟨.counting, plainSession, rfl⟩
  have hrenamed : renamedModel.Reachable := ⟨.counting, renamedSession, rfl⟩
  have hprogram : Program.ofLayers (.str Framework.pytorch.name) plainModel.layers =
      Program.ofLayers (.str Framework.pytorch.name) renamedModel.layers := by
    have hsources :
        (Program.ofLayers (.str Framework.pytorch.name) plainModel.layers).toOption.map
            Program.source =
          (Program.ofLayers (.str Framework.pytorch.name) renamedModel.layers).toOption.map
            Program.source := by decide +kernel
    obtain ⟨source, hsource, -⟩ := Torch.groups?_ofLayers hplain.configured
    obtain ⟨other, hother, -⟩ := Torch.groups?_ofLayers hrenamed.configured
    rw [hsource, hother] at hsources ⊢
    simpa [Except.toOption] using hsources
  exact ⟨hplain, hrenamed, hprogram,
    Model.Reachable.groups_recovered.2 plainModel renamedModel hplain hrenamed hprogram⟩

end LayerStack
