import LayerStack.Proofs.Elements
import LayerStack.Proofs.Summaries

/-! The parameters of a program.  What the elements of a module class hold in parameters, each as
often as it is held, adds up to the total of the summary of the layers. -/

namespace LayerStack

namespace Export.Torch

/-- The parameters of a recurrent stack with the given number of gates: every direction of every
layer has weights for its input and for its own output, and two biases. -/
def recurrentParameters (gates input hidden layers : Int) (bidirectional : Bool) : Int :=
  let directions := if bidirectional then 2 else 1
  ((List.range layers.toNat).map fun i =>
    let width := if i = 0 then input else hidden * directions
    directions * (gates * hidden * width + gates * hidden * hidden + 2 * gates * hidden)).sum

namespace Element

/-- The parameters that the library gives an element. -/
def parameters : Element → Int
  | .embedding rows width => rows * width
  | .linear input output bias => input * output + if bias then output else 0
  | .conv2d input output kernel bias =>
    input * output * kernel * kernel + if bias then output else 0
  | .lstm input hidden layers bidirectional =>
    recurrentParameters 4 input hidden layers bidirectional
  | .gru input hidden layers bidirectional =>
    recurrentParameters 3 input hidden layers bidirectional
  | .encoderLayer model _ inner _ =>
    4 * model ^ 2 + 4 * model + 2 * model * inner + inner + model + 4 * model
  | .attention model _ => 4 * model ^ 2 + 4 * model
  | .batchNorm1d features | .batchNorm2d features | .layerNorm features => 2 * features
  | .dropout _ | .maxPool2d _ | .avgPool2d _ | .relu | .softmax => 0

end Element

theorem parameters_ofSizes [Machine] (gates input hidden layers : Int) (bidirectional : Bool) :
    (Recurrent.ofSizes input hidden layers bidirectional).parameters gates =
      .ok (.int (recurrentParameters gates input hidden layers bidirectional)) := by
  rw [Recurrent.parameters]
  simp only [Recurrent.inputOf_ofSizes]
  refine (Recurrent.sumLayers_ok _ fun i => gates * ((if i = 0 then input else
    hidden * if bidirectional then 2 else 1) * hidden + hidden * hidden + 2 * hidden) *
      if bidirectional then 2 else 1).trans ?_
  rw [recurrentParameters]
  refine congrArg (fun terms : List Int => Except.ok (Value.int terms.sum))
    (List.map_congr_left fun i _ => ?_)
  ring

variable {layer : Layer}

theorem parameters_eq [Machine] (h : layer.Configured) (rank : Option Rank) :
    layer.kind.parameters layer.config =
      .ok (Element.ofFields layer.kind rank layer.config).parameters := by
  have hread := h.read_eq
  have hstack := Recurrent.ofConfig_eq h
  obtain ⟨id, kind, config⟩ := layer
  cases kind <;>
    simp [Kind.fields, Kind.attentionFields, Kind.recurrentFields, Field.whole, Field.flag,
      Field.rate, FieldRange.valueIn, Kind.isRecurrent] at hread hstack <;>
    simp [Kind.parameters, Kind.parameterAmount, hread, hstack, Config.readIf_bool,
      attentionParameters, bind, Except.bind, Kind.gates, parameters_ofSizes, Element.ofFields,
      Element.parameters]
  case transformer => ring
  case attention => ring
  case batchnorm => by_cases hrank : rank = some .spatial <;> simp [hrank, mul_comm]
  case layernorm => ring

/-- The parameters of a layer with the values of its fields. -/
def layerParameters (layer : Layer) : Int :=
  (Element.ofFields layer.kind none layer.config).parameters

theorem parameters_ofFields (kind : Kind) (rank : Option Rank) (config : Config) :
    (Element.ofFields kind rank config).parameters =
      (Element.ofFields kind none config).parameters := by
  by_cases hrank : rank = some .spatial <;> cases kind <;>
    simp [Element.ofFields, Element.parameters, hrank]

theorem layerParameters_eq (h : layer.Configured) :
    layerParameters layer = layer.parameterCount := by
  -- Both are what the layer counts, on whatever machine.
  let _ := Machine.small
  exact Except.ok.inj ((parameters_eq h none).symm.trans h.complete.parameters_eq)

theorem layerParameters_nonneg (h : layer.Configured) : 0 ≤ layerParameters layer := by
  rw [layerParameters_eq h]
  exact h.complete.parametersOf_nonneg

end Export.Torch

/-! ### The summary -/

open Export.Torch (layerParameters Held)

/-- The summary of configured layers, whose total is the sum of what the layers hold. -/
theorem Summary.ofLayers_ok [Machine] {layers : List Layer} (h : ∀ layer ∈ layers, layer.Configured)
    (shape : Shape) : ∃ summary, ofLayers layers shape = .ok summary ∧
      summary.totalParameters = (layers.map layerParameters).sum := by
  refine ⟨describe layers shape, ofLayers_eq (fun layer hlayer => (h layer hlayer).complete) shape,
    ?_⟩
  rw [describe, List.map_congr_left fun layer hlayer =>
    Export.Torch.layerParameters_eq (h layer hlayer)]

/-! ### Groups and layers -/

theorem Value.same_int {m n : Int} : (Value.int m).same (.int n) = true ↔ m = n := by
  simp [Value.int, same, number?, Number.same, Number.value?]

theorem Value.same_bool {b c : Bool} : (Value.bool b).same (.bool c) = true ↔ b = c := by
  cases b <;> cases c <;> decide

/-- Configurations that are equal hold equal values in every field. -/
theorem Config.Complete.same_valueIn {kind : Kind} {a b : Config} (ha : a.Complete kind)
    (hb : b.Complete kind) (h : a.same b = true) : ∀ field ∈ kind.fields,
      (field.range.valueIn a field.key).same (field.range.valueIn b field.key) = true := by
  intro field hfield
  have hget := (ha.get?_eq hfield).1
  have hother := (hb.get?_eq hfield).1
  simp only [Config.same, Bool.and_eq_true, List.all_eq_true] at h
  have hentry := h.2 _ (Entries.mem_of_get? hget)
  simpa [hother] using hentry

namespace Export.Torch

theorem layerParameters_alike {a b : Layer} (h : a.Alike b) (ha : a.Configured)
    (hb : b.Configured) : layerParameters a = layerParameters b := by
  have hsame := ha.complete.same_valueIn (h.1 ▸ hb.complete) h.2
  obtain ⟨id, kind, config⟩ := a
  obtain ⟨other, kind', config'⟩ := b
  obtain rfl : kind = kind' := h.1
  cases kind <;>
    simp [Kind.fields, Kind.attentionFields, Kind.recurrentFields, Field.whole, Field.flag,
      Field.rate, FieldRange.valueIn, Value.same_int, Value.same_bool] at hsame <;>
    simp [layerParameters, Element.ofFields, Element.parameters, hsame]

theorem map_layerParameters {xs ys : List Layer} (h : List.Forall₂ Layer.Equals xs ys)
    (hxs : ∀ x ∈ xs, x.Configured) (hys : ∀ y ∈ ys, y.Configured) :
    xs.map layerParameters = ys.map layerParameters := by
  induction h with
  | nil => rfl
  | cons hxy _ ih =>
    rw [List.forall_mem_cons] at hxs hys
    rw [List.map_cons, List.map_cons, layerParameters_alike hxy.2 hxs.1 hys.1, ih hxs.2 hys.2]

/-- What is held for groups adds up to what their layers hold. -/
theorem sum_held (units : List NamedGroup) :
    (units.map fun unit =>
      ((Held.ofUnit unit).count : Int) * (Held.ofUnit unit).element.parameters).sum =
      ((Group.expand (units.map NamedGroup.group)).map layerParameters).sum := by
  induction units with
  | nil => rfl
  | cons unit rest ih =>
    have hunit : (unit.group.layers.map layerParameters).sum =
        (Held.ofUnit unit).count * (Held.ofUnit unit).element.parameters := by
      have hconstant : unit.group.layers.map layerParameters =
          List.replicate unit.group.count
            (Element.ofFields unit.group.kind unit.rank unit.group.config).parameters := by
        rw [parameters_ofFields, Group.layers, List.map_map, Group.count, ← List.map_const]
        rfl
      rw [hconstant, List.sum_replicate, nsmul_eq_mul]
      rfl
    simp only [List.map_cons, List.sum_cons, Group.expand, List.flatMap_cons, List.map_append,
      List.sum_append, hunit] at ih ⊢
    rw [ih]

end Export.Torch

/-- The program for a model of a session holds as many parameters as its summary tells, in every
shape. -/
theorem Model.Reachable.parameters_preserved [Machine] {model : Model} (h : model.Reachable)
    (shape : Shape) :
    ∃ source helds summary,
      Program.ofLayers (.str Framework.pytorch.name) model.layers = .ok ⟨.pytorch, source⟩ ∧
      Export.Torch.held? source = some helds ∧ Summary.ofLayers model.layers shape = .ok summary ∧
      (helds.map fun held => (held.count : Int) * held.element.parameters).sum =
        summary.totalParameters := by
  have hconfigured := h.configured
  obtain ⟨units, source, -, hgroups, hsound, hsource, hheld⟩ :=
    Export.Torch.held?_ofLayers hconfigured
  obtain ⟨summary, hsummary, htotal⟩ := Summary.ofLayers_ok hconfigured shape
  refine ⟨source, _, summary, hsource, hheld, hsummary, ?_⟩
  have hexpand := Group.expand_ofLayers fun layer hlayer => (hconfigured layer hlayer).comparable
  have hexpanded : ∀ layer ∈ Group.expand (Group.ofLayers model.layers), layer.Configured := by
    intro layer hlayer
    obtain ⟨group, hgroup, hmem⟩ := List.mem_flatMap.mp hlayer
    rw [← hgroups, List.mem_map] at hgroup
    obtain ⟨unit, hunit, rfl⟩ := hgroup
    obtain ⟨id, -, rfl⟩ := List.mem_map.mp hmem
    exact (hsound unit hunit).configured id
  calc (((units.map Held.ofUnit).map fun held =>
        (held.count : Int) * held.element.parameters).sum : Int)
      = (units.map fun unit =>
          ((Held.ofUnit unit).count : Int) * (Held.ofUnit unit).element.parameters).sum := by
        rw [List.map_map]
        rfl
    _ = ((Group.expand (units.map NamedGroup.group)).map layerParameters).sum :=
        Export.Torch.sum_held units
    _ = (model.layers.map layerParameters).sum := by
        rw [hgroups, Export.Torch.map_layerParameters hexpand hexpanded hconfigured]
    _ = summary.totalParameters := htotal.symm

/-- A stack of both directions, a run of two convolutions without bias, and an encoder block. -/
def countedSession : List Edit := [
  .add (.str "lstm") none (some "a"),
  .update (some "a") "bidirectional" (.bool true),
  .update (some "a") "num_layers" (.int 3),
  .add (.str "conv2d") none (some "b"),
  .update (some "b") "use_bias" (.bool false),
  .add (.str "conv2d") none (some "c"),
  .update (some "c") "use_bias" (.bool false),
  .add (.str "transformer") none none]

def countedModel : Model := ((Workspace.start .counting).run countedSession).model

attribute [local instance] Machine.small

theorem parameters_preserved_countedModel :
    countedModel.Reachable ∧ ∃ source helds summary,
      Program.ofLayers (.str Framework.pytorch.name) countedModel.layers =
        .ok ⟨.pytorch, source⟩ ∧
      Export.Torch.held? source = some helds ∧
      Summary.ofLayers countedModel.layers .empty = .ok summary ∧
      (helds.map fun held => (held.count : Int) * held.element.parameters).sum =
        summary.totalParameters :=
  have h : countedModel.Reachable := ⟨.counting, countedSession, rfl⟩
  ⟨h, h.parameters_preserved .empty⟩

end LayerStack
