import LayerStack.Model.Basic

/-! Runs of alike layers.  Two neighbouring layers are in one group if they agree in kind and their
configurations are equal; the configuration of a group is that of its first layer. -/

namespace LayerStack

/-- A run of alike layers: their ids in order, and the position of the first one. -/
structure Group where
  kind : Kind
  config : Config
  memberIds : List Text
  start : Nat
  deriving DecidableEq

namespace Group

def count (group : Group) : Nat := group.memberIds.length

/-- The group of the one layer at a position. -/
def ofLayer (layer : Layer) (position : Nat) : Group :=
  ⟨layer.kind, layer.config, [layer.id], position⟩

/-- The group with one more layer at its end. -/
def extend (group : Group) (layer : Layer) : Group :=
  { group with memberIds := group.memberIds ++ [layer.id] }

/-- Whether a layer agrees in kind with the first layer of a group and has an equal
configuration. -/
def takes (group : Group) (layer : Layer) : Bool :=
  decide (layer.kind = group.kind) && layer.config.same group.config

/-- The groups of an open group and the layers that follow it. -/
def close (group : Group) : List Layer → List Group
  | [] => [group]
  | layer :: rest =>
    if group.takes layer then close (group.extend layer) rest
    else group :: close (ofLayer layer (group.start + group.count)) rest

/-- The groups of a sequence of layers. -/
def ofLayers : List Layer → List Group
  | [] => []
  | layer :: rest => close (ofLayer layer 0) rest

def layers (group : Group) : List Layer :=
  group.memberIds.map fun id => ⟨id, group.kind, group.config⟩

def expand (groups : List Group) : List Layer := groups.flatMap layers

def toMembers (group : Group) : Members := [
  ("type", .str group.kind.name),
  ("config", group.config.toValue),
  ("count", .int group.count),
  ("layer_ids", .list (group.memberIds.map Value.str))]

end Group

end LayerStack
