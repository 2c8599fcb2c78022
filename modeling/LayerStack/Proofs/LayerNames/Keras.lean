import LayerStack.Proofs.ForwardPass
import LayerStack.Proofs.FieldValues
import LayerStack.Proofs.LayerNames.Reader

/-! The names that a function that builds a model gives its layers.  A group gives its name to its
layer, numbered if there are more of them, and the helpers give names of their own that start with
the name they are given. -/

namespace LayerStack.Export

open Names

namespace Keras

/-- The names that the layers of a kind get under a name. -/
def namesUnder (kind : Kind) (config : Config) (name : String) : List String :=
  match kind with
  | .transformer => ["_mha", "_ln1", "_ffn1", "_ffn2", "_drop", "_ln2"].map (name ++ ·)
  | .lstm | .gru =>
    (List.range (config.whole "num_layers").toNat).flatMap fun j =>
      (name ++ "_l" ++ Decimal.natText j) ::
        if config.flag "bidirectional" then [name ++ "_bi" ++ Decimal.natText j] else []
  | _ => [name]

/-- The names that the layers of a group get. -/
def groupNames (unit : NamedGroup) : List String :=
  let names := namesUnder unit.group.kind unit.group.config
  if 1 < unit.group.count then
    (List.range unit.group.count).flatMap fun i => names (unit.name ++ "_" ++ Decimal.natText i)
  else names unit.name

/-! ### The helpers -/

variable {scope : Scope} {name : String}

theorem ofLine?_suffixed (hname : scope.lookup "name" = some (some name)) {line : List Char}
    {suffix : String}
    (hline : ((expression? line).bind WrittenCall.ofText?).bind (argument? · "name") =
      some ("f\"\x7b" ++ "name" ++ "\x7d" ++ suffix ++ "\""))
    (hsuffix : '\x7b' ∉ suffix.toList) :
    ofLine? ofLayerCall? scope line = some [name ++ suffix] := by
  rw [ofLine?_of_name hline, evaluate?_suffixed (by decide) hname hsuffix]
  rfl

theorem ofLine?_numbered (hname : scope.lookup "name" = some (some name)) {number : String}
    (hnumber : scope.lookup "i" = some (some number)) {line : List Char} {suffix : String}
    (hline : ((expression? line).bind WrittenCall.ofText?).bind (argument? · "name") =
      some ("f\"\x7b" ++ "name" ++ "\x7d" ++ suffix ++ "\x7b" ++ "i" ++ "\x7d\""))
    (hsuffix : '\x7b' ∉ suffix.toList) :
    ofLine? ofLayerCall? scope line = some [name ++ suffix ++ number] := by
  rw [ofLine?_of_name hline, evaluate?_numbered (by decide) (by decide) hname hnumber hsuffix]
  rfl

def blockBody : List Outline :=
  match Statement.outline 0 transformerBlock with
  | [.node _ _ body] => body
  | _ => []

def stackBody : List Outline :=
  match Statement.outline 0 recurrentStack with
  | [.node _ _ body] => body
  | _ => []

theorem givenAll?_blockBody (hname : scope.lookup "name" = some (some name)) (config : Config) :
    givenAll? ofLayerCall? scope blockBody = some (namesUnder .transformer config name) := by
  have hmha : ofLine? ofLayerCall? scope ("attn = layers.MultiHeadAttention(".toList ++
      ("num_heads=num_heads, key_dim=d_model // num_heads, dropout=dropout, " ++
        "name=f\"\x7bname\x7d_mha\"").toList ++ [')']) = some [name ++ "_mha"] :=
    ofLine?_suffixed hname (by decide +kernel) (by decide)
  have hln1 : ofLine? ofLayerCall? scope
      "x = layers.LayerNormalization(name=f\"\x7bname\x7d_ln1\")(x + attn)".toList =
        some [name ++ "_ln1"] :=
    ofLine?_suffixed hname (by decide +kernel) (by decide)
  have hffn1 : ofLine? ofLayerCall? scope
      "ffn = layers.Dense(d_ff, activation=\"relu\", name=f\"\x7bname\x7d_ffn1\")(x)".toList =
        some [name ++ "_ffn1"] :=
    ofLine?_suffixed hname (by decide +kernel) (by decide)
  have hffn2 : ofLine? ofLayerCall? scope
      "ffn = layers.Dense(d_model, name=f\"\x7bname\x7d_ffn2\")(ffn)".toList =
        some [name ++ "_ffn2"] :=
    ofLine?_suffixed hname (by decide +kernel) (by decide)
  have hdrop : ofLine? ofLayerCall? scope
      "ffn = layers.Dropout(dropout, name=f\"\x7bname\x7d_drop\")(ffn)".toList =
        some [name ++ "_drop"] :=
    ofLine?_suffixed hname (by decide +kernel) (by decide)
  have hln2 : ofLine? ofLayerCall? scope
      "return layers.LayerNormalization(name=f\"\x7bname\x7d_ln2\")(x + ffn)".toList =
        some [name ++ "_ln2"] :=
    ofLine?_suffixed hname (by decide +kernel) (by decide)
  have hopen : "attn = layers.MultiHeadAttention(".toList.getLast? = some '(' := rfl
  have hclose : ofLine? ofLayerCall? scope ")(x, x)".toList = some [] := rfl
  simp only [blockBody, transformerBlock, Statement.outlineAll, Statement.outline, List.map_cons,
    List.map_nil, List.nil_append, List.cons_append, givenAll?, given?, Outline.text,
    List.flatMap_cons, List.flatMap_nil, List.append_nil]
  rw [if_pos hopen, hmha, hln1, hffn1, hffn2, hdrop, hln2, hclose]
  rfl

/-- The lines that the stack goes through for each of its layers. -/
def stackPass : List Outline :=
  match stackBody with
  | .node _ _ body :: _ => body
  | _ => []

theorem givenAll?_stackPass (hname : scope.lookup "name" = some (some name))
    {number : String} (hnumber : scope.lookup "i" = some (some number)) {b : Bool}
    (hflag : scope.lookup "bidirectional" = some (some (Value.bool b).text.shown)) :
    givenAll? ofLayerCall? scope stackPass =
      some ((name ++ "_l" ++ number) :: if b then [name ++ "_bi" ++ number] else []) := by
  have hcell : ofLine? ofLayerCall? scope
      "rnn = cell(units, return_sequences=True, name=f\"\x7bname\x7d_l\x7bi\x7d\")".toList =
        some [name ++ "_l" ++ number] :=
    ofLine?_numbered hname hnumber (by decide +kernel) (by decide)
  have hboth : ofLine? ofLayerCall? scope
      "rnn = layers.Bidirectional(rnn, name=f\"\x7bname\x7d_bi\x7bi\x7d\")".toList =
        some [name ++ "_bi" ++ number] :=
    ofLine?_numbered hname hnumber (by decide +kernel) (by decide)
  have happly : ofLine? ofLayerCall? scope "x = rnn(x)".toList = some [] := rfl
  have hcondition : condition? scope "if bidirectional:".toList = some b := by
    refine condition?_eq (v := "bidirectional") (by decide) ?_
    rw [evaluate?_of_not_mem (by decide)]
    exact congrArg (Option.getD · _) hflag
  have hbranch : givenAll? ofLayerCall? scope [.node 12
      "rnn = layers.Bidirectional(rnn, name=f\"\x7bname\x7d_bi\x7bi\x7d\")".toList []] =
        some [name ++ "_bi" ++ number] := by
    rw [givenAll?, given?, hboth, givenAll?]
    rfl
  have hcase : given? ofLayerCall? scope (.node 8 "if bidirectional:".toList [.node 12
      "rnn = layers.Bidirectional(rnn, name=f\"\x7bname\x7d_bi\x7bi\x7d\")".toList []]) =
        if b then some [name ++ "_bi" ++ number] else some [] := by
    rw [given?_condition (by decide) rfl hcondition (List.cons_ne_nil _ _), hbranch]
  have hbody : stackPass = [
      .node 8
        "rnn = cell(units, return_sequences=True, name=f\"\x7bname\x7d_l\x7bi\x7d\")".toList [],
      .node 8 "if bidirectional:".toList [.node 12
        "rnn = layers.Bidirectional(rnn, name=f\"\x7bname\x7d_bi\x7bi\x7d\")".toList []],
      .node 8 "x = rnn(x)".toList []] := rfl
  rw [hbody, givenAll?, given?, hcell, givenAll?, hcase, givenAll?, given?, happly, givenAll?]
  cases b <;> rfl

theorem givenAll?_stackBody (hname : scope.lookup "name" = some (some name)) {config : Config}
    {kind : Kind} (hkind : kind.isRecurrent = true)
    (hpositive : 1 ≤ config.whole "num_layers")
    (hlayers : scope.lookup "num_layers" =
      some (some (Value.int (config.whole "num_layers")).text.shown))
    (hflag : scope.lookup "bidirectional" =
      some (some (Value.bool (config.flag "bidirectional")).text.shown)) :
    givenAll? ofLayerCall? scope stackBody = some (namesUnder kind config name) := by
  have hloop : loop? scope "for i in range(num_layers):".toList =
      some ("i", (config.whole "num_layers").toNat) := by
    have hvalue : evaluate? scope "num_layers".toList =
        some (Value.int (config.whole "num_layers")).text.shown := by
      rw [evaluate?_of_not_mem (by decide)]
      exact congrArg (Option.getD · _) hlayers
    exact loop?_eq (v := "num_layers") (by decide) hvalue (Value.natural?_int hpositive)
  have hreturn : ofLine? ofLayerCall? scope "return x".toList = some [] := rfl
  have hne : stackPass ≠ [] := List.cons_ne_nil _ _
  have hpass : ∀ j, givenAll? ofLayerCall? (("i", some (Decimal.natText j)) :: scope) stackPass =
      some ((name ++ "_l" ++ Decimal.natText j) ::
        if config.flag "bidirectional" then [name ++ "_bi" ++ Decimal.natText j] else []) := by
    intro j
    exact givenAll?_stackPass (by simpa [List.lookup_cons] using hname) rfl
      (by simpa [List.lookup_cons] using hflag)
  have hpasses := given?_loop (by decide) hloop hne (fun j _ => hpass j) 4
  have hbody : stackBody = [.node 4 "for i in range(num_layers):".toList stackPass,
    .node 4 "return x".toList []] := rfl
  rw [hbody, givenAll?, hpasses, givenAll?, given?, hreturn, givenAll?]
  cases kind <;> simp [Kind.isRecurrent] at hkind <;> simp [namesUnder]

def blockDefinition : Definition :=
  ⟨"transformer_block", ["x", "d_model", "num_heads", "d_ff", "dropout", "name"], blockBody⟩

def stackDefinition : Definition :=
  ⟨"recurrent_stack", ["x", "cell", "units", "num_layers", "bidirectional", "name"], stackBody⟩

/-- The function that the layers of a kind are made by, if a program has one for them. -/
def helper? : Kind → Option Definition
  | .transformer => some blockDefinition
  | .lstm | .gru => some stackDefinition
  | _ => none

/-! ### The calls -/

theorem expression?_line (application : Application) : ∃ rest,
    expression? application.line.toList = some (application.call.text.toList ++ rest) := by
  obtain ⟨rest, hline⟩ : ∃ rest, application.line.toList =
      'x' :: (" = ".toList ++ (application.call.text.toList ++ rest)) := by
    rw [Application.line, String.toList_append, String.toList_append, List.append_assoc]
    exact ⟨_, rfl⟩
  have hreturn : ('x' :: (" = ".toList ++ (application.call.text.toList ++ rest))).dropPrefix?
      "return ".toList = none := rfl
  have hword : ('x' :: (" = ".toList ++ (application.call.text.toList ++ rest))).dropWhile
      isWordChar = " = ".toList ++ (application.call.text.toList ++ rest) := rfl
  exact ⟨rest, by rw [expression?, hline, hreturn, Option.none_or, hword, dropPrefix?_append]⟩

/-- The line of an application calls what its call says, if the words of the call can be told. -/
theorem ofLine?_line {application : Application} (hcallee : '(' ∉ application.call.callee.toList)
    (hargs : ∀ arg ∈ application.call.args, arg.IsPlain)
    (ofCall? : Scope → WrittenCall → Option (List String)) (scope : Scope) :
    ∃ rest, ofLine? ofCall? scope application.line.toList =
      ofCall? scope ⟨application.call.callee, application.call.args.map Arg.written, rest⟩ := by
  obtain ⟨rest, hrest⟩ := expression?_line application
  refine ⟨rest, ofLine?_of_call ?_ ofCall?⟩
  rw [hrest, Option.bind_some, WrittenCall.ofText?_append hcallee hargs]

/-- The call by which a layer of a kind is made: that of a helper or of a class of the library. -/
structure Makes (call : Call) (kind : Kind) (config : Config) (written : String) : Prop where
  callee : match helper? kind with
    | some helper => call.callee = helper.name
    | none => "layers.".toList <+: call.callee.toList
  bracket : '(' ∉ call.callee.toList
  plain : ∀ arg ∈ call.args, arg.IsPlain
  name : ∀ rest, argument? ⟨call.callee, call.args.map Arg.written, rest⟩ "name" = some written
  stack : kind.isRecurrent = true → ∀ rest,
    argument? ⟨call.callee, call.args.map Arg.written, rest⟩ "num_layers" =
        some (Value.int (config.whole "num_layers")).text.shown ∧
      argument? ⟨call.callee, call.args.map Arg.written, rest⟩ "bidirectional" =
        some (Value.bool (config.flag "bidirectional")).text.shown

theorem layer_makes {layer : Layer} (h : layer.Configured) {written : String}
    (hname : IsWord written) {application : Application}
    (happlication : Keras.layer layer.kind layer.config written = .ok application) :
    Makes application.call layer.kind layer.config written := by
  have hread := h.read_eq
  have hwritten := fun field hfield => (h.holds_valueIn field hfield).written_eq
  have hwords : ∀ field ∈ layer.kind.fields,
      IsWord (field.range.valueIn layer.config field.key).text.shown :=
    fun field hfield => (h.holds_valueIn field hfield).isWord
  have hwidth := headWidth_ok h
  obtain ⟨id, kind, config⟩ := layer
  by_cases hkind : kind = .attention
  · subst hkind
    obtain ⟨width, hwidth⟩ := hwidth rfl
    have hword : IsWord (Value.int width).text.shown := Value.isWord rfl (Value.ofSource?_int _)
    simp [Kind.fields, Kind.attentionFields, Field.whole, FieldRange.valueIn]
      at hread hwritten hwords
    simp [Keras.layer, readSetting, hread, hwritten, hwidth] at happlication
    subst happlication
    constructor <;> simp +decide [hname, hword, hwords, helper?, argument?, Kind.isRecurrent]
  cases kind <;>
    simp [Kind.fields, Kind.attentionFields, Kind.recurrentFields, Field.whole, Field.flag,
      Field.rate, FieldRange.valueIn] at hread hwritten hwords hkind <;>
    simp [Keras.layer, readFlag, Config.readFlag, readSetting, hread, hwritten,
      Except.map] at happlication <;>
    subst happlication <;> constructor <;>
    simp +decide [hname, hwords, helper?, argument?, Kind.isRecurrent, Value.isGiven,
      blockDefinition, stackDefinition]

theorem evaluate?_shown {range : FieldRange} {v : Value} (h : range.Holds v)
    (hscope : ∀ v, v ≠ "i" → scope.lookup v = none) :
    evaluate? scope v.text.shown.toList = some v.text.shown := by
  obtain ⟨x, hx⟩ := h.number?_isSome
  have hquote : '"' ∉ v.text.shown.toList := not_mem_of_forall (Value.bare_of_number? hx) rfl
  have hindex : v.text.shown ≠ "i" := by
    intro heq
    have hread := h.ofSource?_shown
    have hnone : Value.ofSource? "i".toList = none := by decide
    rw [heq, hnone] at hread
    contradiction
  rw [evaluate?_of_not_mem hquote, hscope _ hindex]
  rfl

/-- The names that are given by the call by which a layer is made. -/
theorem ofCall?_makes {layer : Layer} (h : layer.Configured) {call : Call} {written : String}
    (hmakes : Makes call layer.kind layer.config written)
    (hvalue : evaluate? scope written.toList = some name)
    (hscope : ∀ v, v ≠ "i" → scope.lookup v = none) {definitions : List Definition}
    (hfind : definitions.find? (fun definition => decide (definition.name = call.callee)) =
      helper? layer.kind) (rest : List Char) :
    ofCall? definitions scope ⟨call.callee, call.args.map Arg.written, rest⟩ =
      some (namesUnder layer.kind layer.config name) := by
  have hname : ∀ params, (bindArgs params scope (call.args.map Arg.written)).lookup "name" =
      some (some name) := by
    intro params
    rw [lookup_bindArgs params (hmakes.name rest), hvalue]
  have hrecurrent : layer.kind.isRecurrent = true →
      givenAll? ofLayerCall?
          (bindArgs stackDefinition.params scope (call.args.map Arg.written)) stackBody =
        some (namesUnder layer.kind layer.config name) := by
    intro hkind
    have hholds := h.holds_valueIn
    have hpositive := h.one_le_whole
    simp only [Kind.fields_of_isRecurrent hkind, Kind.recurrentFields, Field.whole, Field.flag,
      List.forall_mem_cons, FieldRange.valueIn] at hholds hpositive
    obtain ⟨hlayers, hflag⟩ := hmakes.stack hkind rest
    refine givenAll?_stackBody (hname _) hkind (hpositive.2.2.1 _ rfl) ?_ ?_
    · rw [lookup_bindArgs _ hlayers, evaluate?_shown hholds.2.2.1 hscope]
    · rw [lookup_bindArgs _ hflag, evaluate?_shown hholds.2.2.2.1 hscope]
  obtain ⟨id, kind, config⟩ := layer
  rw [ofCall?, hfind]
  cases kind with
  | transformer => exact givenAll?_blockBody (hname _) config
  | lstm => exact hrecurrent rfl
  | gru => exact hrecurrent rfl
  | _ => simp [helper?, ofLayerCall?, hmakes.name, hvalue, namesUnder]

/-! ### The program -/

def buildDefinition (input : String) (steps : List Step) : Definition :=
  ⟨"build_model", [], .node 4 ("inputs = tf.keras.Input(" ++ input ++ ")").toList [] ::
    .node 4 "x = inputs".toList [] :: Statement.outlineAll 1 (steps.map Step.statement ++
      [.line "return tf.keras.Model(inputs, x, name=\"layercal_model\")"])⟩

def definitions (input : String) (steps : List Step) : List Definition :=
  (if steps.any fun step => decide (step.kind = .transformer) then [blockDefinition] else []) ++
  (if steps.any fun step => step.kind.isRecurrent then [stackDefinition] else []) ++
  [buildDefinition input steps]

theorem filterMap_ofOutline?_program (input : String) (steps : List Step) :
    (Statement.outlineAll 0 (program input steps)).filterMap Definition.ofOutline? =
      definitions input steps := by
  rw [program, helpers, definitions]
  split <;> split <;> rfl

theorem find?_build (input : String) (steps : List Step) :
    (definitions input steps).find? (fun definition => decide (definition.name = "build_model")) =
      some (buildDefinition input steps) := by
  rw [definitions]
  split <;> split <;> rfl

theorem not_library_of_mem_definitions {input : String} {steps : List Step} :
    ∀ definition ∈ definitions input steps, ¬"layers.".toList <+: definition.name.toList := by
  rw [definitions]
  split <;> split <;> simp +decide [blockDefinition, stackDefinition, buildDefinition]

/-- A program defines the helpers that it calls. -/
theorem find?_definitions (input : String) {steps : List Step} {step : Step} (h : step ∈ steps)
    {call : Call} {config : Config} {written : String}
    (hmakes : Makes call step.kind config written) :
    (definitions input steps).find? (fun definition => decide (definition.name = call.callee)) =
      helper? step.kind := by
  have hcallee := hmakes.callee
  have hstack : step.kind.isRecurrent = true →
      (definitions input steps).find? (fun definition =>
        decide (definition.name = stackDefinition.name)) = some stackDefinition := by
    intro hkind
    have hany : (steps.any fun step => step.kind.isRecurrent) = true :=
      List.any_eq_true.mpr ⟨step, h, hkind⟩
    rw [definitions, hany]
    split <;> rfl
  cases hkind : step.kind with
  | transformer =>
    have hany : (steps.any fun step => decide (step.kind = .transformer)) = true :=
      List.any_eq_true.mpr ⟨step, h, by simp [hkind]⟩
    rw [hkind] at hcallee
    rw [definitions, hany, hcallee]
    rfl
  | lstm | gru =>
    rw [hkind] at hcallee hstack
    rw [hcallee, hstack rfl]
    rfl
  | _ =>
    simp only [hkind, helper?] at hcallee ⊢
    rw [List.find?_eq_none]
    intro definition hmem
    have hname := not_library_of_mem_definitions definition hmem
    simp only [decide_eq_true_eq]
    intro heq
    exact hname (heq ▸ hcallee)

theorem isWord_layerName {unit : NamedGroup} (h : unit.Sound) :
    IsWord (if unit.repeated then indexedName unit.name "i" else quotedName unit.name) := by
  have hname : ∀ c ∈ unit.name.toList, isWordChar c = true := by
    intro c hc
    refine isWordChar_of_isBareChar ?_
    simp [isBareChar, h.name c hc]
  have hfixed : ∀ cs : List Char, cs.all isWordChar = true → ∀ c ∈ cs, isWordChar c = true :=
    fun _ => List.all_eq_true.mp
  split
  · refine ⟨by simp [indexedName], ?_⟩
    simp only [indexedName, String.toList_append, List.forall_mem_append]
    exact ⟨⟨⟨⟨hfixed _ rfl, hname⟩, hfixed _ rfl⟩, hfixed _ rfl⟩, hfixed _ rfl⟩
  · refine ⟨by simp [quotedName], ?_⟩
    simp only [quotedName, String.toList_append, List.forall_mem_append]
    exact ⟨⟨hfixed _ rfl, hname⟩, hfixed _ rfl⟩

theorem given?_passes {ofCall? : Scope → WrittenCall → Option (List String)} {line : String}
    {count : Nat} {once : List String}
    (honce : ¬1 < count → ofLine? ofCall? [] line.toList = some once)
    {numbered : Nat → List String}
    (hnumbered : 1 < count → ∀ i, ofLine? ofCall? [("i", some (Decimal.natText i))] line.toList =
      some (numbered i)) (depth : Nat) :
    ∃ outline, (passes count line).outline depth = [outline] ∧
      given? ofCall? [] outline =
        some (if 1 < count then (List.range count).flatMap numbered else once) := by
  rw [passes]
  split
  next hmany =>
    have hopen : ("for i in range(" ++ Decimal.natText count ++ "):").toList.getLast? ≠
        some '(' := by
      have hlast : "):".toList.getLast? = some ':' := rfl
      rw [String.toList_append, List.getLast?_append, hlast]
      simp
    have hbody : Statement.outlineAll (depth + 1) [.line line] ≠ [] := List.cons_ne_nil _ _
    have hpass : ∀ i < count, givenAll? ofCall? [("i", some (Decimal.natText i))]
        (Statement.outlineAll (depth + 1) [.line line]) = some (numbered i) := by
      intro i _
      rw [Statement.outlineAll, Statement.outline, List.singleton_append, givenAll?, given?,
        hnumbered hmany, Statement.outlineAll, givenAll?]
      simp
    exact ⟨_, rfl, given?_loop hopen (loop?_natText count rfl) hbody hpass _⟩
  next hone => exact ⟨_, rfl, by rw [given?, honce hone]⟩

/-- The part of a program for a group gives its layers their names. -/
theorem given?_step {unit : NamedGroup} (h : unit.Sound) (input : String) {steps : List Step}
    {step : Step} (hstep : Step.ofUnit unit = .ok step) (hmem : step ∈ steps) (depth : Nat) :
    ∃ outline, (passes step.count step.application.line).outline depth = [outline] ∧
      given? (ofCall? (definitions input steps)) [] outline = some (groupNames unit) := by
  obtain ⟨hkind, hcount, happlication⟩ := Step.ofUnit_eq_ok hstep
  have hmakes := layer_makes (h.configured default) (isWord_layerName h) happlication
  have hfind := find?_definitions input hmem (hkind ▸ hmakes)
  rw [hkind] at hfind
  have hline : ∀ (scope : Scope) (name : String), (∀ v, v ≠ "i" → scope.lookup v = none) →
      evaluate? scope
        (if unit.repeated then indexedName unit.name "i" else quotedName unit.name).toList =
          some name →
      ofLine? (ofCall? (definitions input steps)) scope step.application.line.toList =
        some (namesUnder unit.group.kind unit.group.config name) := by
    intro scope name hscope hvalue
    obtain ⟨rest, hcall⟩ := ofLine?_line hmakes.bracket hmakes.plain
      (ofCall? (definitions input steps)) scope
    rw [hcall]
    exact ofCall?_makes (h.configured default) hmakes hvalue hscope hfind rest
  rw [hcount]
  refine given?_passes (fun hone => hline [] _ (by simp) ?_) (fun hmany i => hline _ _ ?_ ?_) depth
  · have hrepeated : unit.repeated = false := by simpa [NamedGroup.repeated] using hone
    rw [if_neg (by simp [hrepeated]), evaluate?_quotedName]
  · intro v hv
    simp [hv]
  · have hbrace : '\x7b' ∉ unit.name.toList := not_mem_of_forall h.name rfl
    have hrepeated : unit.repeated = true := decide_eq_true hmany
    rw [if_pos hrepeated]
    exact evaluate?_indexedName hbrace (by decide) rfl

theorem givenAll?_steps {units : List NamedGroup} (h : ∀ unit ∈ units, unit.Sound) (input : String)
    {steps all : List Step} (hmem : ∀ step ∈ steps, step ∈ all)
    (hsteps : List.Forall₂ (fun unit step => Step.ofUnit unit = .ok step) units steps)
    (depth : Nat) :
    givenAll? (ofCall? (definitions input all)) []
        (Statement.outlineAll depth
          (steps.map fun step => passes step.count step.application.line)) =
      some (units.flatMap groupNames) := by
  induction hsteps with
  | nil => rfl
  | cons hstep _ ih =>
    rw [List.forall_mem_cons] at h hmem
    obtain ⟨outline, houtline, hgiven⟩ := given?_step h.1 input hstep hmem.1 depth
    rw [List.map_cons, Statement.outlineAll, houtline, List.singleton_append, givenAll?, hgiven,
      ih h.2 hmem.2]
    rfl

/-- Running a program for named groups gives every layer of every group its name. -/
theorem ofSource?_program {units : List NamedGroup} (h : ∀ unit ∈ units, unit.Sound)
    {input : String} (hinput : OneLine input) {steps : List Step}
    (hsteps : List.Forall₂ (fun unit step => Step.ofUnit unit = .ok step) units steps)
    (hreadable : ∀ step ∈ steps, step.Readable) :
    ofSource? (Statement.programText (program input steps)) = some (units.flatMap groupNames) := by
  have hne : program input steps ≠ [] := by simp [program, Statement.heading]
  have hbody := beforeReturn?_passes (fun step : Step => step.count)
    (fun step => step.application.line) (fun step (_ : step ∈ steps) => head?_line step.application)
    1 "return tf.keras.Model(inputs, x, name=\"layercal_model\")" (by decide)
  have hgiven := givenAll?_steps h input (fun _ hstep => hstep) hsteps 1
  rw [← statement_eq] at hbody hgiven
  rw [ofSource?, Statement.ofText_programText hne (isLine_program hinput hreadable)]
  simp only [filterMap_ofOutline?_program, find?_build, Option.bind_eq_bind, Option.bind_some,
    buildDefinition, dropWhile_inputs, hbody, hgiven]

end Keras

end LayerStack.Export
