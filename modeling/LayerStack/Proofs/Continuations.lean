import LayerStack.Proofs.Names

/-! Naming goes from the first layer to the last one.  Layers that are appended may join the last
group of the layers before them and open groups of their own, and every group keeps the name and the
rank that it had without them. -/

namespace LayerStack

namespace Group

/-- The group with layers at its end. -/
def joined (group : Group) (layers : List Layer) : Group :=
  { group with memberIds := group.memberIds ++ layers.map Layer.id }

/-- The scan goes on with the group that is open after the first layers. -/
theorem close_append (group : Group) (xs ys : List Layer) :
    ∃ before last, group.close xs = before ++ [last] ∧
      group.close (xs ++ ys) = before ++ last.close ys := by
  induction xs generalizing group with
  | nil => exact ⟨[], group, rfl, rfl⟩
  | cons layer rest ih =>
    rw [List.cons_append, close, close]
    split
    · exact ih (group.extend layer)
    · obtain ⟨before, last, hclose, happend⟩ := ih (ofLayer layer (group.start + group.count))
      exact ⟨group :: before, last, by rw [hclose]; rfl, by rw [happend]; rfl⟩

/-- The open group takes the leading layers that agree with it, and no others. -/
theorem close_eq_joined (group : Group) (layers : List Layer) :
    ∃ later, group.close layers = group.joined (layers.takeWhile group.takes) :: later := by
  induction layers generalizing group with
  | nil => exact ⟨[], by simp [close, joined]⟩
  | cons layer rest ih =>
    rw [close]
    split
    next htakes =>
      obtain ⟨later, hlater⟩ := ih (group.extend layer)
      have hsame : (group.extend layer).takes = group.takes := rfl
      refine ⟨later, ?_⟩
      rw [hlater, hsame, List.takeWhile_cons_of_pos htakes]
      simp [joined, extend]
    next htakes =>
      refine ⟨close (ofLayer layer (group.start + group.count)) rest, ?_⟩
      simp [List.takeWhile_cons_of_neg htakes, joined]

theorem ofLayers_append {xs : List Layer} (hxs : xs ≠ []) (ys : List Layer) :
    ∃ before last later, ofLayers xs = before ++ [last] ∧
      ofLayers (xs ++ ys) = before ++ last.joined (ys.takeWhile last.takes) :: later := by
  cases xs with
  | nil => exact absurd rfl hxs
  | cons layer rest =>
    obtain ⟨before, last, hclose, happend⟩ := close_append (ofLayer layer 0) rest ys
    obtain ⟨later, hlater⟩ := close_eq_joined last ys
    exact ⟨before, last, later, hclose, by rw [List.cons_append, ofLayers, happend, hlater]⟩

end Group

/-- The rank before a layer depends on the layers before it. -/
theorem Rank.beforeEach_append (rank : Rank) (xs ys : List Layer) :
    ∃ later, beforeEach rank (xs ++ ys) = beforeEach rank xs ++ later := by
  induction xs generalizing rank with
  | nil => exact ⟨_, rfl⟩
  | cons layer rest ih =>
    obtain ⟨later, hlater⟩ := ih (rank.after layer.kind)
    exact ⟨later, by rw [List.cons_append, beforeEach, beforeEach, hlater, List.cons_append]⟩

namespace NamedGroup

/-- The named group with layers at its end. -/
def joined (unit : NamedGroup) (layers : List Layer) : NamedGroup :=
  { unit with group := unit.group.joined layers }

/-- What does not change when layers are appended: everything but the members. -/
def heading (unit : NamedGroup) : Kind × Config × Nat × String × Option Rank :=
  (unit.group.kind, unit.group.config, unit.group.start, unit.name, unit.rank)

theorem rankFor_append {ranks : List Rank} {group : Group} (h : group.start < ranks.length)
    (later : List Rank) : rankFor (ranks ++ later) group = rankFor ranks group := by
  rw [rankFor, rankFor, List.getElem?_append_left h]

theorem rankFor_joined (ranks : List Rank) (group : Group) (layers : List Layer) :
    rankFor ranks (group.joined layers) = rankFor ranks group := rfl

/-- Naming gives the groups before the last one, and the last one apart from its members, the names
and the ranks that they have without the groups after them. -/
theorem nameAll_append {ranks laterRanks : List Rank} {before laterGroups : List Group}
    {last : Group} (hfirst : ∀ group ∈ before ++ [last], group.start < ranks.length)
    (hlater : ∀ group ∈ laterGroups, group.start < (ranks ++ laterRanks).length)
    (layers : List Layer) (seen : List Kind) :
    ∃ units unit later, unit.group = last ∧
      nameAll ranks seen (before ++ [last]) = .ok (units ++ [unit]) ∧
      nameAll (ranks ++ laterRanks) seen (before ++ last.joined layers :: laterGroups) =
        .ok (units ++ unit.joined layers :: later) := by
  induction before generalizing seen with
  | nil =>
    have hstart : last.start < ranks.length := hfirst last (by simp)
    obtain ⟨rank, hrank⟩ := exists_rankFor hstart
    obtain ⟨later, hnamed, -⟩ := nameAll_ok hlater (last.kind :: seen)
    refine ⟨[], ⟨last, nameFor last.kind (seen.count last.kind), rank⟩, later, rfl, ?_, ?_⟩
    · simp [nameAll, hrank]
    · have hkind : (last.joined layers).kind = last.kind := rfl
      rw [List.nil_append, List.nil_append, nameAll, rankFor_joined, rankFor_append hstart, hrank,
        hkind, hnamed]
      rfl
  | cons first rest ih =>
    rw [List.cons_append, List.forall_mem_cons] at hfirst
    obtain ⟨rank, hrank⟩ := exists_rankFor hfirst.1
    obtain ⟨units, unit, later, hunit, hnamed, happend⟩ := ih hfirst.2 (first.kind :: seen)
    refine ⟨⟨first, nameFor first.kind (seen.count first.kind), rank⟩ :: units, unit, later, hunit,
      ?_, ?_⟩
    · rw [List.cons_append, nameAll, hrank, hnamed]
      rfl
    · rw [List.cons_append, nameAll, rankFor_append hfirst.1, hrank, happend]
      rfl

/-- The named groups of layers are the first named groups of any layers that begin with them; only
the last one may get more members, which are the leading layers of what is appended. -/
theorem ofLayers_continue (xs ys : List Layer) :
    ∃ us vs, ofLayers xs = .ok us ∧ ofLayers (xs ++ ys) = .ok vs ∧
      us.map heading <+: vs.map heading ∧
      (xs = [] ∧ us = [] ∨ ∃ before last later, us = before ++ [last] ∧
        vs = before ++ last.joined (ys.takeWhile last.group.takes) :: later) := by
  by_cases hxs : xs = []
  · subst hxs
    obtain ⟨vs, hvs, -⟩ := ofLayers_ok ys
    exact ⟨[], vs, rfl, hvs, List.nil_prefix, .inl ⟨rfl, rfl⟩⟩
  · obtain ⟨before, last, laterGroups, hgroups, happend⟩ := Group.ofLayers_append hxs ys
    obtain ⟨laterRanks, hranks⟩ := Rank.beforeEach_append .flat xs ys
    have hfirst : ∀ group ∈ before ++ [last], group.start < (Rank.beforeEach .flat xs).length := by
      rw [← hgroups, length_beforeEach]
      exact fun group hgroup => Group.start_lt_of_mem_ofLayers hgroup
    have hlater : ∀ group ∈ laterGroups,
        group.start < (Rank.beforeEach .flat xs ++ laterRanks).length := by
      intro group hgroup
      rw [← hranks, length_beforeEach]
      refine Group.start_lt_of_mem_ofLayers ?_
      simp [happend, hgroup]
    obtain ⟨units, unit, later, rfl, hunits, hmore⟩ :=
      nameAll_append hfirst hlater (ys.takeWhile last.takes) []
    refine ⟨units ++ [unit], units ++ unit.joined (ys.takeWhile unit.group.takes) :: later, ?_, ?_,
      ?_, .inr ⟨units, unit, later, rfl, rfl⟩⟩
    · rw [ofLayers, ofGroups, hgroups, Rank.ofLayers, hunits]
    · rw [ofLayers, ofGroups, happend, Rank.ofLayers, hranks, hmore]
    · rw [List.map_append, List.map_append, List.map_cons, List.map_cons]
      exact ⟨later.map heading, by simp [heading, joined, Group.joined]⟩

end NamedGroup

end LayerStack
