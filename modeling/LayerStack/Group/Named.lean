import LayerStack.Group.Basic
import LayerStack.Group.Rank

/-! Named groups: each group gets the name of a variable, and norms the rank of the values before
them.  The first group of a kind has the bare short name and later ones a running number. -/

namespace LayerStack

def Kind.shortName : Kind → String
  | .embedding => "embedding"
  | .linear => "fc"
  | .conv2d => "conv"
  | .lstm => "lstm"
  | .gru => "gru"
  | .transformer => "transformer"
  | .attention => "attn"
  | .batchnorm => "bn"
  | .layernorm => "ln"
  | .dropout => "dropout"
  | .maxpool2d => "maxpool"
  | .avgpool2d => "avgpool"
  | .relu => "relu"
  | .softmax => "softmax"

/-- A group with its name, and with a rank if it is a norm. -/
structure NamedGroup where
  group : Group
  name : String
  rank : Option Rank
  deriving DecidableEq

namespace NamedGroup

def repeated (unit : NamedGroup) : Bool := decide (1 < unit.group.count)

/-- The name of the group of a kind that comes after `earlier` others of the kind. -/
def nameFor (kind : Kind) (earlier : Nat) : String :=
  if earlier = 0 then kind.shortName else kind.shortName ++ Decimal.natText (earlier + 1)

/-- The rank of a group, which a norm reads at the position of its first layer. -/
def rankFor (ranks : List Rank) (group : Group) : Except Fault (Option Rank) :=
  if group.kind.isNorm then
    match ranks[group.start]? with
    | some rank => .ok (some rank)
    | none => .error .noSuchPosition
  else .ok none

/-- The named forms of groups that come after groups of the kinds `seen`. -/
def nameAll (ranks : List Rank) (seen : List Kind) : List Group → Except Fault (List NamedGroup)
  | [] => .ok []
  | group :: rest => do
    let rank ← rankFor ranks group
    let units ← nameAll ranks (group.kind :: seen) rest
    return ⟨group, nameFor group.kind (seen.count group.kind), rank⟩ :: units

/-- The named forms of groups, with the ranks before the given layers. -/
def ofGroups (groups : List Group) (layers : List Layer) : Except Fault (List NamedGroup) :=
  nameAll (Rank.ofLayers layers) [] groups

/-- The named groups of a sequence of layers. -/
def ofLayers (layers : List Layer) : Except Fault (List NamedGroup) :=
  ofGroups (Group.ofLayers layers) layers

def toMembers (unit : NamedGroup) : Members :=
  let named : Members := [("name", .str unit.name)]
  let ranked : Members := match unit.rank with
    | some rank => [("rank", .str rank.name)]
    | none => []
  unit.group.toMembers ++ named ++ ranked

end NamedGroup

end LayerStack
