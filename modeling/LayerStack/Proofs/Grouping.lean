import LayerStack.Group.Basic
import LayerStack.Proofs.Equality
import Mathlib.Data.List.Chain

/-! Grouping and expanding undo each other.  The groups of a sequence of layers are its one
decomposition into runs that cannot be extended: each starts where the one before it ends, and two
neighbours differ in kind or in configuration. -/

namespace LayerStack

/-- Two layers that differ in their ids at most: one kind, and configurations that are equal. -/
def Layer.Alike (a b : Layer) : Prop := a.kind = b.kind ∧ a.config.same b.config = true

/-- Equality of layers. -/
def Layer.Equals (a b : Layer) : Prop := a.id = b.id ∧ a.Alike b

namespace Group

def Alike (a b : Group) : Prop := a.kind = b.kind ∧ a.config.same b.config = true

def Equals (a b : Group) : Prop :=
  a.Alike b ∧ a.count = b.count ∧ a.memberIds = b.memberIds ∧ a.start = b.start

/-- Groups that follow each other without a gap from the first position on, none of them empty, and
no two neighbours alike. -/
structure Canonical (groups : List Group) : Prop where
  counts : ∀ group ∈ groups, group.count = group.memberIds.length ∧ 1 ≤ group.count
  starts : ∀ before group after, groups = before ++ group :: after →
    group.start = (before.map count).sum
  maximal : groups.IsChain fun a b => ¬ a.Alike b

/-- The groups follow each other without a gap from a position on. -/
def StartFrom : Nat → List Group → Prop
  | _, [] => True
  | position, group :: rest => group.start = position ∧ StartFrom (position + group.count) rest

theorem startFrom_iff {position : Nat} {groups : List Group} :
    StartFrom position groups ↔ ∀ before group after, groups = before ++ group :: after →
      group.start = position + (before.map count).sum := by
  induction groups generalizing position with
  | nil => simp [StartFrom]
  | cons first rest ih =>
    rw [StartFrom, ih]
    constructor
    · rintro ⟨hfirst, hrest⟩ before group after heq
      cases before with
      | nil =>
        obtain ⟨rfl, rfl⟩ := List.cons.inj heq
        simpa using hfirst
      | cons other before =>
        obtain ⟨rfl, rfl⟩ := List.cons.inj heq
        rw [hrest before group after rfl, List.map_cons, List.sum_cons, Nat.add_assoc]
    · intro h
      refine ⟨by simpa using h [] first rest rfl, ?_⟩
      rintro before group after rfl
      rw [h (first :: before) group after rfl, List.map_cons, List.sum_cons, Nat.add_assoc]

/-! ### The scan -/

theorem takes_iff {group : Group} {layer : Layer} :
    group.takes layer = true ↔ layer.kind = group.kind ∧ layer.config.same group.config = true := by
  simp [takes]

@[simp] theorem count_ofLayer (layer : Layer) (position : Nat) :
    (ofLayer layer position).count = 1 := rfl

@[simp] theorem count_extend (group : Group) (layer : Layer) :
    (group.extend layer).count = group.count + 1 := by simp [count, extend]

/-- The group that is open stays the first one, with more members perhaps. -/
theorem close_head (group : Group) (layers : List Layer) :
    ∃ ids rest,
      group.close layers = { group with memberIds := group.memberIds ++ ids } :: rest := by
  induction layers generalizing group with
  | nil => exact ⟨[], [], by simp [close]⟩
  | cons layer layers ih =>
    rw [close]
    split
    · obtain ⟨ids, rest, h⟩ := ih (group.extend layer)
      exact ⟨layer.id :: ids, rest, by simpa [extend] using h⟩
    · exact ⟨[], (ofLayer layer (group.start + group.count)).close layers, by simp⟩

theorem close_counts (group : Group) (h : 1 ≤ group.count) (layers : List Layer) :
    ∀ g ∈ group.close layers, 1 ≤ g.count := by
  induction layers generalizing group with
  | nil => simpa [close] using h
  | cons layer rest ih =>
    rw [close]
    split
    · exact ih _ (by simp)
    · exact List.forall_mem_cons.mpr ⟨h, ih _ (by simp)⟩

theorem close_startFrom (group : Group) (layers : List Layer) :
    StartFrom group.start (group.close layers) := by
  induction layers generalizing group with
  | nil => exact ⟨rfl, trivial⟩
  | cons layer rest ih =>
    rw [close]
    split
    · exact ih (group.extend layer)
    · exact ⟨rfl, ih (ofLayer layer (group.start + group.count))⟩

theorem close_sources (group : Group) (layers : List Layer) :
    ∀ g ∈ group.close layers, g.kind = group.kind ∧ g.config = group.config ∨
      ∃ layer ∈ layers, g.kind = layer.kind ∧ g.config = layer.config := by
  induction layers generalizing group with
  | nil => simp [close]
  | cons layer rest ih =>
    rw [close]
    intro g hg
    split at hg
    · rcases ih (group.extend layer) g hg with h | ⟨other, hother, h⟩
      · exact .inl h
      · exact .inr ⟨other, List.mem_cons_of_mem _ hother, h⟩
    · rcases List.mem_cons.mp hg with rfl | hg
      · exact .inl ⟨rfl, rfl⟩
      · rcases ih (ofLayer layer (group.start + group.count)) g hg with h | ⟨other, hother, h⟩
        · exact .inr ⟨layer, List.mem_cons_self, h⟩
        · exact .inr ⟨other, List.mem_cons_of_mem _ hother, h⟩

/-- The kind and the configuration of a group are those of one of its layers. -/
theorem ofLayers_sources {layers : List Layer} {group : Group} (h : group ∈ ofLayers layers) :
    ∃ layer ∈ layers, group.kind = layer.kind ∧ group.config = layer.config := by
  cases layers with
  | nil => simp [ofLayers] at h
  | cons layer rest =>
    rcases close_sources (ofLayer layer 0) rest group h with h | ⟨other, hother, h⟩
    · exact ⟨layer, List.mem_cons_self, h⟩
    · exact ⟨other, List.mem_cons_of_mem _ hother, h⟩

theorem sum_count_close (group : Group) (layers : List Layer) :
    ((group.close layers).map count).sum = group.count + layers.length := by
  induction layers generalizing group with
  | nil => simp [close]
  | cons layer rest ih =>
    rw [close]
    split
    · rw [ih, count_extend, List.length_cons, Nat.add_assoc, Nat.add_comm 1]
    · rw [List.map_cons, List.sum_cons, ih, count_ofLayer, List.length_cons, Nat.add_comm 1]

theorem start_lt_of_startFrom {position : Nat} {groups : List Group}
    (h : StartFrom position groups) (hcounts : ∀ g ∈ groups, 1 ≤ g.count) :
    ∀ g ∈ groups, g.start < position + (groups.map count).sum := by
  induction groups generalizing position with
  | nil => simp
  | cons first rest ih =>
    rw [List.forall_mem_cons] at hcounts ⊢
    rw [List.map_cons, List.sum_cons]
    refine ⟨by have := h.1; omega, fun g hg => ?_⟩
    have := ih h.2 hcounts.2 g hg
    omega

theorem start_lt_of_mem_ofLayers {layers : List Layer} {group : Group}
    (h : group ∈ ofLayers layers) : group.start < layers.length := by
  cases layers with
  | nil => simp [ofLayers] at h
  | cons layer rest =>
    have hcounts := close_counts (ofLayer layer 0) (by simp) rest
    have hlt := start_lt_of_startFrom (close_startFrom (ofLayer layer 0) rest) hcounts group h
    rw [sum_count_close, count_ofLayer] at hlt
    have hzero : (ofLayer layer 0).start = 0 := rfl
    rw [List.length_cons]
    omega

theorem close_maximal (group : Group) {layers : List Layer} (hgroup : group.config.Comparable)
    (hlayers : ∀ layer ∈ layers, layer.config.Comparable) :
    (group.close layers).IsChain fun a b => ¬ a.Alike b := by
  induction layers generalizing group with
  | nil => exact .singleton _
  | cons layer rest ih =>
    rw [List.forall_mem_cons] at hlayers
    rw [close]
    split
    · exact ih _ hgroup hlayers.2
    next htakes =>
      have hrest := ih (ofLayer layer (group.start + group.count)) hlayers.1 hlayers.2
      -- The scan compares a layer with the first one of the run, which the head of the rest keeps.
      obtain ⟨ids, more, hclose⟩ := close_head (ofLayer layer (group.start + group.count)) rest
      rw [hclose] at hrest ⊢
      refine .cons_cons (fun halike => htakes (takes_iff.mpr ?_)) hrest
      exact ⟨halike.1.symm, Config.same_symm hgroup hlayers.1 halike.2⟩

/-- The open group stands for the layers `before` that it has taken already. -/
theorem expand_close (group : Group) {before layers : List Layer}
    (hgroup : group.config.Comparable) (hlayers : ∀ layer ∈ layers, layer.config.Comparable)
    (hbefore : List.Forall₂ Layer.Equals group.layers before) :
    List.Forall₂ Layer.Equals (expand (group.close layers)) (before ++ layers) := by
  induction layers generalizing group before with
  | nil => simpa [close, expand] using hbefore
  | cons layer rest ih =>
    rw [List.forall_mem_cons] at hlayers
    rw [close]
    split
    next htakes =>
      obtain ⟨hkind, hconfig⟩ := takes_iff.mp htakes
      have hlast : Layer.Equals ⟨layer.id, group.kind, group.config⟩ layer :=
        ⟨rfl, hkind.symm, Config.same_symm hlayers.1 hgroup hconfig⟩
      have hopen : List.Forall₂ Layer.Equals (group.extend layer).layers (before ++ [layer]) := by
        have hsplit : (group.extend layer).layers =
            group.layers ++ [⟨layer.id, group.kind, group.config⟩] := by simp [Group.layers, extend]
        rw [hsplit]
        exact List.rel_append hbefore (.cons hlast .nil)
      have hrest := ih (group.extend layer) hgroup hlayers.2 hopen
      rwa [List.append_assoc] at hrest
    · have hself : List.Forall₂ Layer.Equals (ofLayer layer (group.start + group.count)).layers
          [layer] := .cons ⟨rfl, rfl, Config.same_refl hlayers.1⟩ .nil
      exact List.rel_append hbefore (ih _ hlayers.1 hlayers.2 hself)

/-! ### Regrouping -/

theorem close_run (group : Group) (hgroup : group.config.Comparable) (ids : List Text)
    (rest : List Layer) :
    group.close (ids.map (fun id => ⟨id, group.kind, group.config⟩) ++ rest) =
      close { group with memberIds := group.memberIds ++ ids } rest := by
  induction ids generalizing group with
  | nil => simp
  | cons id ids ih =>
    have htakes : group.takes ⟨id, group.kind, group.config⟩ = true :=
      takes_iff.mpr ⟨rfl, Config.same_refl hgroup⟩
    have hrest := ih (group.extend ⟨id, group.kind, group.config⟩) hgroup
    simp only [extend, List.append_assoc, List.singleton_append] at hrest
    simpa [close, htakes, extend] using hrest

/-- The first layer of a group opens it, and the others join it. -/
theorem layers_eq_cons {group : Group} (hcount : 1 ≤ group.count)
    (hgroup : group.config.Comparable) :
    ∃ id more, group.layers = ⟨id, group.kind, group.config⟩ :: more ∧ ∀ rest,
      (ofLayer ⟨id, group.kind, group.config⟩ group.start).close (more ++ rest) =
        group.close rest := by
  obtain ⟨kind, config, ids, start⟩ := group
  cases ids with
  | nil => simp [count] at hcount
  | cons id ids =>
    refine ⟨id, _, rfl, fun rest => ?_⟩
    exact close_run (ofLayer ⟨id, kind, config⟩ start) hgroup ids rest

theorem close_expand {group : Group} {groups : List Group}
    (hcounts : ∀ g ∈ groups, 1 ≤ g.count) (hconfigs : ∀ g ∈ group :: groups, g.config.Comparable)
    (hstarts : StartFrom (group.start + group.count) groups)
    (hmaximal : (group :: groups).IsChain fun a b => ¬ a.Alike b) :
    group.close (expand groups) = group :: groups := by
  induction groups generalizing group with
  | nil => rfl
  | cons next rest ih =>
    rw [List.forall_mem_cons] at hcounts hconfigs
    obtain ⟨hnext, hstarts⟩ := hstarts
    obtain ⟨hdiffer, hmaximal⟩ := List.isChain_cons_cons.mp hmaximal
    have hconfig := hconfigs.2 next List.mem_cons_self
    obtain ⟨id, more, hlayers, hclose⟩ := layers_eq_cons hcounts.1 hconfig
    have htakes : group.takes ⟨id, next.kind, next.config⟩ = false := by
      rw [Bool.eq_false_iff]
      intro h
      obtain ⟨hkind, hsame⟩ := takes_iff.mp h
      exact hdiffer ⟨hkind.symm, Config.same_symm hconfig hconfigs.1 hsame⟩
    have hexpand : expand (next :: rest) =
        ⟨id, next.kind, next.config⟩ :: (more ++ expand rest) := by simp [expand, hlayers]
    rw [hexpand, close, htakes, if_neg (by simp), ← hnext, hclose,
      ih hcounts.2 hconfigs.2 (hnext ▸ hstarts) hmaximal]

theorem ofLayers_expand {groups : List Group} (h : Canonical groups)
    (hconfigs : ∀ g ∈ groups, g.config.Comparable) : ofLayers (expand groups) = groups := by
  cases groups with
  | nil => rfl
  | cons first rest =>
    have hcounts : ∀ g ∈ first :: rest, 1 ≤ g.count := fun g hg => (h.counts g hg).2
    have hstarts : StartFrom 0 (first :: rest) := by
      simpa [startFrom_iff] using h.starts
    obtain ⟨hzero, hrest⟩ := hstarts
    obtain ⟨id, more, hlayers, hclose⟩ :=
      layers_eq_cons (hcounts first List.mem_cons_self) (hconfigs first List.mem_cons_self)
    have hexpand : expand (first :: rest) =
        ⟨id, first.kind, first.config⟩ :: (more ++ expand rest) := by simp [expand, hlayers]
    rw [hexpand, ofLayers, ← hzero, hclose]
    exact close_expand (fun g hg => hcounts g (List.mem_cons_of_mem _ hg)) hconfigs
      (hzero ▸ hrest) h.maximal

/-! ### Uniqueness -/

theorem close_equals {a b : Group} {xs ys : List Layer} (h : a.Equals b)
    (ha : a.config.Comparable) (hb : b.config.Comparable)
    (hxs : ∀ x ∈ xs, x.config.Comparable) (hys : ∀ y ∈ ys, y.config.Comparable)
    (hlayers : List.Forall₂ Layer.Equals xs ys) :
    List.Forall₂ Equals (a.close xs) (b.close ys) := by
  induction hlayers generalizing a b with
  | nil => exact .cons h .nil
  | @cons x y xs ys hxy hrest ih =>
    rw [List.forall_mem_cons] at hxs hys
    obtain ⟨⟨hkind, hconfig⟩, hcount, hids, hstart⟩ := h
    obtain ⟨hid, hkinds, hsame⟩ := hxy
    have htakes : a.takes x = b.takes y := by
      rw [Bool.eq_iff_iff, takes_iff, takes_iff, ← hkinds, hkind]
      refine and_congr_right fun _ => ⟨fun htake => ?_, fun htake => ?_⟩
      · have hyx := Config.same_symm hxs.1 hys.1 hsame
        exact Config.same_trans (Config.same_trans hyx htake) hconfig
      · have hba := Config.same_symm ha hb hconfig
        exact Config.same_trans (Config.same_trans hsame htake) hba
    rw [close, close, htakes]
    split
    · refine ih ⟨⟨hkind, hconfig⟩, ?_, ?_, hstart⟩ ha hb hxs.2 hys.2
      · simp [hcount]
      · simp [extend, hids, hid]
    · refine .cons ⟨⟨hkind, hconfig⟩, hcount, hids, hstart⟩ (ih ?_ hxs.1 hys.1 hxs.2 hys.2)
      exact ⟨⟨hkinds, hsame⟩, rfl, by simp [ofLayer, hid], by simp [ofLayer, hstart, hcount]⟩

theorem ofLayers_equals {xs ys : List Layer} (hxs : ∀ x ∈ xs, x.config.Comparable)
    (hys : ∀ y ∈ ys, y.config.Comparable) (h : List.Forall₂ Layer.Equals xs ys) :
    List.Forall₂ Equals (ofLayers xs) (ofLayers ys) := by
  cases h with
  | nil => exact .nil
  | cons hxy hrest =>
    rw [List.forall_mem_cons] at hxs hys
    exact close_equals ⟨hxy.2, rfl, by simp [ofLayer, hxy.1], rfl⟩ hxs.1 hys.1 hxs.2 hys.2 hrest

theorem canonical_ofLayers {layers : List Layer}
    (hlayers : ∀ layer ∈ layers, layer.config.Comparable) : Canonical (ofLayers layers) := by
  cases layers with
  | nil => exact ⟨by simp [ofLayers], by simp [ofLayers], .nil⟩
  | cons layer rest =>
    rw [List.forall_mem_cons] at hlayers
    have hcounts := close_counts (ofLayer layer 0) (by simp) rest
    have hstarts := startFrom_iff.mp (close_startFrom (ofLayer layer 0) rest)
    refine ⟨fun g hg => ⟨rfl, hcounts g hg⟩, fun before group after heq => ?_,
      close_maximal _ hlayers.1 hlayers.2⟩
    rw [hstarts before group after heq]
    exact Nat.zero_add _

theorem expand_ofLayers {layers : List Layer}
    (hlayers : ∀ layer ∈ layers, layer.config.Comparable) :
    List.Forall₂ Layer.Equals (expand (ofLayers layers)) layers := by
  cases layers with
  | nil => exact .nil
  | cons layer rest =>
    rw [List.forall_mem_cons] at hlayers
    exact expand_close (ofLayer layer 0) hlayers.1 hlayers.2
      (.cons ⟨rfl, rfl, Config.same_refl hlayers.1⟩ .nil)

/-- Grouping gives the one canonical list of groups that expands to the given layers, and canonical
groups are what their own expansion is grouped to. -/
theorem groups_layers_inverse :
    (∀ layers, (∀ layer ∈ layers, layer.config.Comparable) →
      Canonical (ofLayers layers) ∧
      List.Forall₂ Layer.Equals (expand (ofLayers layers)) layers ∧
      ∀ groups, Canonical groups → (∀ group ∈ groups, group.config.Comparable) →
        List.Forall₂ Layer.Equals (expand groups) layers →
        List.Forall₂ Equals groups (ofLayers layers)) ∧
    (∀ groups, Canonical groups → (∀ group ∈ groups, group.config.Comparable) →
      ofLayers (expand groups) = groups) := by
  refine ⟨fun layers hlayers => ⟨canonical_ofLayers hlayers, expand_ofLayers hlayers, ?_⟩,
    fun groups => ofLayers_expand⟩
  intro groups hcanonical hgroups hexpand
  have hexpanded : ∀ x ∈ expand groups, x.config.Comparable := by
    intro x hx
    obtain ⟨group, hgroup, hmem⟩ := List.mem_flatMap.mp hx
    obtain ⟨id, -, rfl⟩ := List.mem_map.mp hmem
    exact hgroups group hgroup
  have hequal := ofLayers_equals hexpanded hlayers hexpand
  rwa [ofLayers_expand hcanonical hgroups] at hequal

/-- Three dropout layers, of which the first two have equal rates of two sorts. -/
def mixedRates : List Layer := [
  ⟨"a", .dropout, ⟨[("rate", .int 1)]⟩⟩,
  ⟨"b", .dropout, ⟨[("rate", .bool true)]⟩⟩,
  ⟨"c", .dropout, ⟨[("rate", .real .tenth)]⟩⟩]

theorem groups_layers_inverse_mixedRates :
    (∀ layer ∈ mixedRates, layer.config.Comparable) ∧ Canonical (ofLayers mixedRates) ∧
      List.Forall₂ Layer.Equals (expand (ofLayers mixedRates)) mixedRates ∧
      (∀ group ∈ ofLayers mixedRates, group.config.Comparable) ∧
      List.Forall₂ Equals (ofLayers mixedRates) (ofLayers mixedRates) ∧
      ofLayers (expand (ofLayers mixedRates)) = ofLayers mixedRates := by
  have hlayers : ∀ layer ∈ mixedRates, layer.config.Comparable := by
    have htenth : Binary64.tenth ≠ .nan := by decide +kernel
    simp [mixedRates, Config.Comparable, Config.toValue, Value.Comparable,
      Value.ComparableMembers, Entries.keys, Value.int, Value.real, htenth]
  have hgroups : ∀ group ∈ ofLayers mixedRates, group.config.Comparable := by
    intro group hgroup
    obtain ⟨layer, hlayer, -, hconfig⟩ := ofLayers_sources hgroup
    exact hconfig ▸ hlayers layer hlayer
  obtain ⟨hcanonical, hexpand, hunique⟩ := groups_layers_inverse.1 mixedRates hlayers
  exact ⟨hlayers, hcanonical, hexpand, hgroups, hunique _ hcanonical hgroups hexpand,
    groups_layers_inverse.2 _ hcanonical hgroups⟩

end Group

end LayerStack
