import LayerStack.Model.Basic

/-! Ranks: whether the values at a place of a model are feature vectors or feature maps. -/

namespace LayerStack

/-- What the values between two layers are. -/
inductive Rank where
  /-- Feature vectors. -/
  | flat
  /-- Feature maps. -/
  | spatial
  deriving DecidableEq, Repr

namespace Rank

def name : Rank → String
  | .flat => "flat"
  | .spatial => "spatial"

/-- The rank after a layer of a kind, given the rank before it. -/
def after (rank : Rank) (kind : Kind) : Rank :=
  if kind.isSpatial then .spatial else if kind.isFlat then .flat else rank

/-- The rank before each layer, given the rank before the first one. -/
def beforeEach (rank : Rank) : List Layer → List Rank
  | [] => []
  | layer :: rest => rank :: beforeEach (rank.after layer.kind) rest

/-- The rank before each layer of a model, which starts out flat. -/
def ofLayers (layers : List Layer) : List Rank := beforeEach .flat layers

end Rank

end LayerStack
