import LayerStack.Proofs.Elements

/-! The ranks of norms.  A norm works on feature maps if the last layer before it that settles the
rank is one after which the values are feature maps.  Norms settle nothing, so that all layers of a
group of norms have the rank that is read at the first one. -/

namespace LayerStack

namespace Group

/-! ### Positions -/

def Covers (group : Group) (p : Nat) : Prop := group.start ≤ p ∧ p < group.start + group.count

/-- Grouping keeps the ids and the kinds of layers, whatever their configurations are. -/
theorem expand_close_kinds (group : Group) (layers : List Layer) :
    (expand (group.close layers)).map (fun layer => (layer.id, layer.kind)) =
      (group.layers ++ layers).map fun layer => (layer.id, layer.kind) := by
  induction layers generalizing group with
  | nil => simp [close, expand]
  | cons layer rest ih =>
    rw [close]
    split
    next htakes =>
      have hkind := (takes_iff.mp htakes).1
      rw [ih]
      simp [Group.layers, extend, hkind]
    next =>
      have hrest := ih (ofLayer layer (group.start + group.count))
      simp only [expand, List.flatMap_cons, List.map_append] at hrest ⊢
      rw [hrest]
      simp [Group.layers, ofLayer]

theorem expand_ofLayers_kinds (layers : List Layer) :
    (expand (ofLayers layers)).map (fun layer => (layer.id, layer.kind)) =
      layers.map fun layer => (layer.id, layer.kind) := by
  cases layers with
  | nil => rfl
  | cons layer rest => exact expand_close_kinds (ofLayer layer 0) rest

theorem length_expand (groups : List Group) : (expand groups).length = (groups.map count).sum := by
  simp only [expand, List.length_flatMap, Group.layers, List.length_map]
  rfl

theorem startFrom_ofLayers (layers : List Layer) : StartFrom 0 (ofLayers layers) := by
  cases layers with
  | nil => trivial
  | cons layer rest => exact close_startFrom (ofLayer layer 0) rest

theorem sum_count_ofLayers (layers : List Layer) :
    ((ofLayers layers).map count).sum = layers.length := by
  have hlength := congrArg List.length (expand_ofLayers_kinds layers)
  simpa [length_expand] using hlength

theorem exists_covers {position : Nat} {groups : List Group} (h : StartFrom position groups)
    {p : Nat} (hle : position ≤ p) (hlt : p < position + (groups.map count).sum) :
    ∃ group ∈ groups, group.Covers p := by
  induction groups generalizing position with
  | nil =>
    simp only [List.map_nil, List.sum_nil] at hlt
    omega
  | cons first rest ih =>
    obtain ⟨hfirst, hrest⟩ := h
    by_cases hp : p < position + first.count
    · exact ⟨first, List.mem_cons_self, by unfold Covers; omega⟩
    · rw [List.map_cons, List.sum_cons] at hlt
      obtain ⟨group, hgroup, hcovers⟩ := ih hrest (by omega) (by omega)
      exact ⟨group, List.mem_cons_of_mem _ hgroup, hcovers⟩

theorem getElem?_expand {groups : List Group} (h : StartFrom 0 groups) {group : Group}
    (hgroup : group ∈ groups) {p : Nat} (hp : group.Covers p) :
    ∃ id, group.memberIds[p - group.start]? = some id ∧
      (expand groups)[p]? = some ⟨id, group.kind, group.config⟩ := by
  obtain ⟨before, after, rfl⟩ := List.append_of_mem hgroup
  have hstart := startFrom_iff.mp h before group after rfl
  obtain ⟨hle, hlt⟩ := hp
  have hlength : (expand before).length = group.start := by
    rw [length_expand]
    omega
  have hinside : p - group.start < group.memberIds.length := by
    unfold count at hlt
    omega
  refine ⟨group.memberIds[p - group.start], List.getElem?_eq_getElem hinside, ?_⟩
  have hsplit : expand (before ++ group :: after) =
      expand before ++ (group.layers ++ expand after) := by simp [expand]
  rw [hsplit, List.getElem?_append_right (by omega), hlength, List.getElem?_append_left]
  · simp [Group.layers]
  · simpa [Group.layers] using hinside

/-- The layer at a position has the kind of a group that covers it, and is the member there. -/
theorem kind_of_covers {layers : List Layer} {group : Group} (hgroup : group ∈ ofLayers layers)
    {p : Nat} (hp : group.Covers p) : ∃ layer, layers[p]? = some layer ∧ layer.kind = group.kind ∧
      group.memberIds[p - group.start]? = some layer.id := by
  obtain ⟨id, hid, hexpand⟩ := getElem?_expand (startFrom_ofLayers layers) hgroup hp
  have hkinds := congrArg (·[p]?) (expand_ofLayers_kinds layers)
  simp only [List.getElem?_map, hexpand, Option.map_some] at hkinds
  obtain ⟨layer, hlayer, heq⟩ := Option.map_eq_some_iff.mp hkinds.symm
  obtain ⟨rfl, hkind⟩ := Prod.mk.inj heq
  exact ⟨layer, hlayer, hkind, hid⟩

end Group

namespace Rank

/-! ### The rank at a position -/

/-- The rank after layers, which start out flat. -/
def afterAll (layers : List Layer) : Rank :=
  layers.foldl (fun rank layer => rank.after layer.kind) .flat

/-- Whether a layer leaves the rank as it is. -/
def Keeps (layer : Layer) : Prop := layer.kind.isSpatial = false ∧ layer.kind.isFlat = false

/-- The last layer before a position that settles the rank is one after which the values are
feature maps. -/
def SpatialBefore (layers : List Layer) (p : Nat) : Prop :=
  ∃ earlier last rest, layers.take p = earlier ++ last :: rest ∧
    last.kind ∈ [.conv2d, .maxpool2d, .avgpool2d] ∧ ∀ layer ∈ rest, Keeps layer

theorem getElem?_ofLayers {layers : List Layer} {p : Nat} (hp : p < layers.length) :
    (ofLayers layers)[p]? = some (afterAll (layers.take p)) := by
  have hbefore : ∀ rank, (beforeEach rank layers)[p]? =
      some ((layers.take p).foldl (fun rank layer => rank.after layer.kind) rank) := by
    induction layers generalizing p with
    | nil => simp at hp
    | cons layer rest ih =>
      intro rank
      cases p with
      | zero => rfl
      | succ p =>
        rw [List.length_cons] at hp
        exact ih (by omega) (rank.after layer.kind)
  exact hbefore .flat

theorem afterAll_append_of_keeps {layers : List Layer} (before : List Layer)
    (h : ∀ layer ∈ layers, Keeps layer) : afterAll (before ++ layers) = afterAll before := by
  induction layers generalizing before with
  | nil => simp
  | cons layer rest ih =>
    rw [List.forall_mem_cons] at h
    have hlayer : afterAll (before ++ [layer]) = afterAll before := by
      simp [afterAll, after, h.1.1, h.1.2]
    rw [← List.singleton_append, ← List.append_assoc, ih _ h.2, hlayer]

theorem isSpatial_iff {kind : Kind} :
    kind.isSpatial = true ↔ kind ∈ [.conv2d, .maxpool2d, .avgpool2d] := by
  cases kind <;> decide

theorem afterAll_concat (layers : List Layer) (layer : Layer) :
    afterAll (layers ++ [layer]) = (afterAll layers).after layer.kind := by
  simp [afterAll]

/-- The last layer that settles the rank decides. -/
theorem afterAll_eq_spatial {layers : List Layer} :
    afterAll layers = .spatial ↔ ∃ earlier last rest, layers = earlier ++ last :: rest ∧
      last.kind ∈ [.conv2d, .maxpool2d, .avgpool2d] ∧ ∀ layer ∈ rest, Keeps layer := by
  constructor
  · intro h
    induction layers using List.reverseRecOn with
    | nil => simp [afterAll] at h
    | append_singleton layers layer ih =>
      rw [afterAll_concat, after] at h
      split at h
      next hspatial => exact ⟨layers, layer, [], rfl, isSpatial_iff.mp hspatial, by simp⟩
      next hspatial =>
        split at h
        · contradiction
        next hflat =>
          obtain ⟨earlier, last, rest, rfl, hlast, hrest⟩ := ih h
          refine ⟨earlier, last, rest ++ [layer], by simp, hlast, ?_⟩
          rw [List.forall_mem_append]
          simp only [Bool.not_eq_true] at hspatial hflat
          exact ⟨hrest, by simpa using ⟨hspatial, hflat⟩⟩
  · rintro ⟨earlier, last, rest, rfl, hlast, hrest⟩
    rw [List.append_cons, afterAll_append_of_keeps _ hrest, afterAll_concat, after,
      if_pos (isSpatial_iff.mpr hlast)]

theorem eq_flat_iff {rank : Rank} : rank = .flat ↔ rank ≠ .spatial := by cases rank <;> decide

theorem keeps_of_isNorm {layer : Layer} (h : layer.kind.isNorm = true) : Keeps layer := by
  obtain ⟨id, kind, config⟩ := layer
  cases kind <;> simp [Kind.isNorm] at h <;> exact ⟨rfl, rfl⟩

end Rank

namespace NamedGroup

/-- All layers of a group of norms stand in one rank. -/
theorem rank_of_covers {layers : List Layer} {group : Group}
    (hgroup : group ∈ Group.ofLayers layers) (hnorm : group.kind.isNorm = true) {p : Nat}
    (hp : group.Covers p) :
    Rank.afterAll (layers.take p) = Rank.afterAll (layers.take group.start) := by
  have hsplit : layers.take p =
      layers.take group.start ++ (layers.drop group.start).take (p - group.start) := by
    rw [← List.take_add, Nat.add_sub_cancel' hp.1]
  rw [hsplit]
  refine Rank.afterAll_append_of_keeps _ fun layer hlayer => ?_
  -- A layer between the first one of the group and the position is in the group too.
  obtain ⟨i, hget⟩ := List.mem_iff_getElem?.mp hlayer
  rw [List.getElem?_take] at hget
  split at hget
  next hi =>
    rw [List.getElem?_drop] at hget
    have hcovers : group.Covers (group.start + i) := ⟨by omega, by have := hp.2; omega⟩
    obtain ⟨member, hmember, hkind, -⟩ := Group.kind_of_covers hgroup hcovers
    obtain rfl : layer = member := Option.some.inj (hget.symm.trans hmember)
    exact Rank.keeps_of_isNorm (hkind ▸ hnorm)
  next => contradiction

theorem exists_covers {layers : List Layer} {units : List NamedGroup}
    (hunits : ofLayers layers = .ok units) {p : Nat} (hp : p < layers.length) :
    ∃ unit ∈ units, unit.group.Covers p := by
  obtain ⟨others, hothers, hgroups, -, -⟩ := ofLayers_ok layers
  obtain rfl : units = others := Except.ok.inj (hunits.symm.trans hothers)
  rw [← Group.sum_count_ofLayers, ← Nat.zero_add ((Group.ofLayers layers).map _).sum] at hp
  obtain ⟨group, hgroup, hcovers⟩ :=
    Group.exists_covers (Group.startFrom_ofLayers layers) (Nat.zero_le p) hp
  rw [← hgroups, List.mem_map] at hgroup
  obtain ⟨unit, hunit, rfl⟩ := hgroup
  exact ⟨unit, hunit, hcovers⟩

theorem rank_eq_of_covers {layers : List Layer} {units : List NamedGroup}
    (hunits : ofLayers layers = .ok units) {unit : NamedGroup} (hunit : unit ∈ units) {p : Nat}
    (hp : unit.group.Covers p) :
    unit.rank = if unit.group.kind.isNorm then some (Rank.afterAll (layers.take p)) else none := by
  obtain ⟨others, hothers, hgroups, -, hranks⟩ := ofLayers_ok layers
  obtain rfl : units = others := Except.ok.inj (hunits.symm.trans hothers)
  have hgroup : unit.group ∈ Group.ofLayers layers := hgroups ▸ List.mem_map_of_mem hunit
  have hrank := hranks unit hunit
  have hstart := Rank.getElem?_ofLayers (Group.start_lt_of_mem_ofLayers hgroup)
  rw [rankFor, hstart] at hrank
  split at hrank
  next hnorm =>
    rw [if_pos hnorm, rank_of_covers hgroup hnorm hp]
    exact (Except.ok.inj hrank).symm
  next hnorm =>
    rw [if_neg hnorm]
    exact (Except.ok.inj hrank).symm

end NamedGroup

open Export

/-- The element of a named group is a norm of feature maps exactly for a batch norm of spatial rank,
and a norm of feature vectors for the other batch norms. -/
theorem Export.Torch.batchNorm_iff (unit : NamedGroup) :
    ((∃ n, (Held.ofUnit unit).element = .batchNorm2d n) ↔
      unit.group.kind = .batchnorm ∧ unit.rank = some .spatial) ∧
    ((∃ n, (Held.ofUnit unit).element = .batchNorm1d n) ↔
      unit.group.kind = .batchnorm ∧ unit.rank ≠ some .spatial) := by
  obtain ⟨⟨kind, config, ids, start⟩, name, rank⟩ := unit
  by_cases hrank : rank = some .spatial <;>
    cases kind <;> simp [Held.ofUnit, Element.ofFields, hrank]

theorem Kind.isNorm_iff {kind : Kind} : kind.isNorm = true ↔ kind ∈ [.batchnorm, .layernorm] := by
  cases kind <;> decide

/-- Every norm has the rank that the layers before it settle, whichever place it has in its group,
and the modules of a program for a model of a session normalize over that rank. -/
theorem norm_ranks :
    (∀ layers : List Layer, ∃ units, NamedGroup.ofLayers layers = .ok units ∧
      ∀ p layer, layers[p]? = some layer →
        (∃ unit ∈ units, unit.group.Covers p) ∧
        ∀ unit ∈ units, unit.group.Covers p →
          unit.group.kind = layer.kind ∧
          unit.group.memberIds[p - unit.group.start]? = some layer.id ∧
          (layer.kind ∈ [.batchnorm, .layernorm] →
            (unit.rank = some .spatial ↔ Rank.SpatialBefore layers p) ∧
            (unit.rank = some .flat ↔ ¬ Rank.SpatialBefore layers p) ∧
            (Rank.ofLayers layers)[p]? = (Rank.ofLayers layers)[unit.group.start]?) ∧
          (layer.kind ∉ [.batchnorm, .layernorm] → unit.rank = none)) ∧
    ∀ model : Model, model.Reachable → ∃ units source helds,
      NamedGroup.ofLayers model.layers = .ok units ∧
      Program.ofLayers (.str Framework.pytorch.name) model.layers = .ok ⟨.pytorch, source⟩ ∧
      Torch.held? source = some helds ∧
      List.Forall₂ (fun unit held =>
        ((∃ n, held.element = .batchNorm2d n) ↔
          unit.group.kind = .batchnorm ∧ unit.rank = some .spatial) ∧
        ((∃ n, held.element = .batchNorm1d n) ↔
          unit.group.kind = .batchnorm ∧ unit.rank ≠ some .spatial)) units helds := by
  constructor
  · intro layers
    obtain ⟨units, hunits, hgroups, -, -⟩ := NamedGroup.ofLayers_ok layers
    refine ⟨units, hunits, fun p layer hlayer => ?_⟩
    have hlt : p < layers.length := (List.getElem?_eq_some_iff.mp hlayer).1
    refine ⟨NamedGroup.exists_covers hunits hlt, fun unit hunit hp => ?_⟩
    have hgroup : unit.group ∈ Group.ofLayers layers := hgroups ▸ List.mem_map_of_mem hunit
    obtain ⟨member, hmember, hkind, hid⟩ := Group.kind_of_covers hgroup hp
    obtain rfl : layer = member := Option.some.inj (hlayer.symm.trans hmember)
    have hrank := NamedGroup.rank_eq_of_covers hunits hunit hp
    refine ⟨hkind.symm, hid, fun hnorm => ?_, fun hnorm => ?_⟩
    · rw [hkind, ← Kind.isNorm_iff] at hnorm
      rw [if_pos hnorm] at hrank
      have hstart := Group.start_lt_of_mem_ofLayers hgroup
      rw [hrank, Option.some.injEq, Option.some.injEq, Rank.eq_flat_iff, ne_eq,
        Rank.afterAll_eq_spatial, Rank.getElem?_ofLayers hlt, Rank.getElem?_ofLayers hstart,
        NamedGroup.rank_of_covers hgroup hnorm hp]
      exact ⟨Iff.rfl, Iff.rfl, rfl⟩
    · rw [hkind, ← Kind.isNorm_iff] at hnorm
      rwa [if_neg hnorm] at hrank
  · intro model h
    obtain ⟨units, source, hunits, -, -, hsource, hheld⟩ := Torch.held?_ofLayers h.configured
    refine ⟨units, source, _, hunits, hsource, hheld, ?_⟩
    rw [List.forall₂_map_right_iff, List.forall₂_same]
    exact fun unit _ => Torch.batchNorm_iff unit

/-- A session that ends with a run of two batch norms after a convolution, and with a layer norm
after a linear layer. -/
def normSession : List Edit := [
  .add (.str "conv2d") none none,
  .add (.str "batchnorm") none none,
  .add (.str "batchnorm") none none,
  .add (.str "linear") none none,
  .add (.str "layernorm") none none]

def normModel : Model := ((Workspace.start .counting).run normSession).model

theorem norm_ranks_normModel :
    normModel.layers[2]? = some ⟨"3", .batchnorm, Kind.batchnorm.defaultConfig⟩ ∧
      Rank.SpatialBefore normModel.layers 2 ∧ normModel.Reachable ∧
      ∃ units source helds, NamedGroup.ofLayers normModel.layers = .ok units ∧
        (∃ unit ∈ units, unit.group.Covers 2 ∧ unit.group.kind = .batchnorm ∧
          unit.rank = some .spatial) ∧
        Program.ofLayers (.str Framework.pytorch.name) normModel.layers =
          .ok ⟨.pytorch, source⟩ ∧
        Torch.held? source = some helds ∧
        List.Forall₂ (fun unit held => (∃ n, held.element = .batchNorm2d n) ↔
          unit.group.kind = .batchnorm ∧ unit.rank = some .spatial) units helds := by
  have hlayer : normModel.layers[2]? = some ⟨"3", .batchnorm, Kind.batchnorm.defaultConfig⟩ := by
    decide +kernel
  have hsplit : normModel.layers.take 2 = [] ++ ⟨"1", .conv2d, Kind.conv2d.defaultConfig⟩ ::
      [⟨"2", .batchnorm, Kind.batchnorm.defaultConfig⟩] := by decide +kernel
  have hbefore : Rank.SpatialBefore normModel.layers 2 :=
    ⟨_, _, _, hsplit, by decide, by simpa using ⟨rfl, rfl⟩⟩
  have hreachable : normModel.Reachable := ⟨.counting, normSession, rfl⟩
  obtain ⟨units, hunits, hranks⟩ := norm_ranks.1 normModel.layers
  obtain ⟨others, source, helds, hothers, hsource, hheld, hnorms⟩ :=
    norm_ranks.2 normModel hreachable
  obtain rfl : units = others := Except.ok.inj (hunits.symm.trans hothers)
  obtain ⟨⟨unit, hunit, hcovers⟩, hall⟩ := hranks 2 _ hlayer
  obtain ⟨hkind, -, hnorm, -⟩ := hall unit hunit hcovers
  exact ⟨hlayer, hbefore, hreachable, units, source, helds, hunits,
    ⟨unit, hunit, hcovers, hkind, (hnorm (by decide)).1.mpr hbefore⟩, hsource, hheld,
    hnorms.imp fun _ _ h => h.1⟩

end LayerStack
