import LayerStack.Model.Edit
import LayerStack.Proofs.Configured
import LayerStack.Proofs.Results
import Mathlib.Data.List.Perm.Subperm

/-! What holds of a model throughout an editing session, whatever the answers of its steps: every
layer is configured, and, as long as the id source gives ids that are new when they are drawn, the
ids of the layers are distinct and not empty. -/

namespace LayerStack

namespace Model

def ids (model : Model) : List Text := model.layers.map Layer.id

/-- Every layer has the fields of its kind with values that they may hold. -/
def Configured (model : Model) : Prop := ∀ layer ∈ model.layers, layer.Configured

/-- The ids of the layers tell them apart, and none is empty. -/
structure Identified (model : Model) : Prop where
  distinct : model.ids.Nodup
  nonempty : ∀ id ∈ model.ids, id.isEmpty = false

end Model

/-- If the source has moved on, the id that it gave was not empty and nobody's in the model. -/
def IdSource.FreshFor (before after : IdSource) (model : Model) : Prop :=
  after.next ≠ before.next → before.draw.1.isEmpty = false ∧ before.draw.1 ∉ model.ids

/-- The source that counts from one. -/
def IdSource.counting : IdSource := ⟨1, fun n => Decimal.natText n⟩

/-- Every id that is drawn for an entry is new to the model that is being read. -/
def Payload.FreshDraws (model : Model) : List Value → IdSource → Prop
  | [], _ => True
  | entry :: rest, ids =>
    match readEntry model (model.layers.length + 1) entry ids with
    | (.error _, after) => ids.FreshFor after model
    | (.ok layer, after) =>
      ids.FreshFor after model ∧ FreshDraws ⟨model.layers ++ [layer]⟩ rest after

namespace Workspace

def start (ids : IdSource) : Workspace := ⟨.empty, ids⟩

/-- Every id that a step draws is new at that moment. -/
def FreshStep (workspace : Workspace) : Edit → Prop
  | .add kind position id =>
    workspace.ids.FreshFor (workspace.model.add kind position id workspace.ids).2 workspace.model
  | .load (.list entries) => Payload.FreshDraws .empty entries workspace.ids
  | _ => True

/-- Every id that is drawn in a session is new at that moment. -/
def FreshRun (workspace : Workspace) : List Edit → Prop
  | [] => True
  | edit :: rest => workspace.FreshStep edit ∧ (workspace.apply edit).2.FreshRun rest

end Workspace

instance (before after : IdSource) (model : Model) : Decidable (before.FreshFor after model) :=
  inferInstanceAs (Decidable (_ → _))

instance Payload.decidableFreshDraws (model : Model) :
    (entries : List Value) → (ids : IdSource) → Decidable (FreshDraws model entries ids)
  | [], _ => .isTrue trivial
  | entry :: rest, ids =>
    match h : readEntry model (model.layers.length + 1) entry ids with
    | (.error _, after) =>
      decidable_of_iff (ids.FreshFor after model) (by rw [FreshDraws, h])
    | (.ok layer, after) =>
      have := decidableFreshDraws ⟨model.layers ++ [layer]⟩ rest after
      decidable_of_iff (ids.FreshFor after model ∧ FreshDraws ⟨model.layers ++ [layer]⟩ rest after)
        (by rw [FreshDraws, h])

instance Workspace.decidableFreshStep (workspace : Workspace) :
    (edit : Edit) → Decidable (workspace.FreshStep edit)
  | .add .. => inferInstanceAs (Decidable (IdSource.FreshFor _ _ _))
  | .load (.list _) => inferInstanceAs (Decidable (Payload.FreshDraws _ _ _))
  | .load .null | .load (.bool _) | .load (.num _) | .load (.str _) | .load (.obj _)
  | .delete _ | .move .. | .update .. => .isTrue trivial

instance Workspace.decidableFreshRun :
    (workspace : Workspace) → (edits : List Edit) → Decidable (workspace.FreshRun edits)
  | _, [] => .isTrue trivial
  | workspace, edit :: rest =>
    have := decidableFreshRun (workspace.apply edit).2 rest
    inferInstanceAs (Decidable (_ ∧ _))

/-! ### Positions -/

theorem insertAt_perm {α : Type} (items : List α) (position : Int) (x : α) :
    (insertAt items position x).Perm (x :: items) := by
  have hsplit := List.take_append_drop (insertionPlace items.length position) items
  conv_rhs => rw [← hsplit]
  exact List.perm_middle

theorem takeOut?_perm {α : Type} {items rest : List α} {position : Int} {x : α}
    (h : takeOut? items position = some (x, rest)) : items.Perm (x :: rest) := by
  simp only [takeOut?, Option.bind_eq_bind, Option.bind_eq_some_iff, Option.pure_def,
    Option.some.injEq, Prod.mk.injEq] at h
  obtain ⟨place, -, y, hget, rfl, rfl⟩ := h
  obtain ⟨hlt, rfl⟩ := List.getElem?_eq_some_iff.mp hget
  exact (List.getElem_cons_eraseIdx_perm hlt).symm

namespace Model

/-! ### Single operations -/

theorem Configured.subperm {model other : Model} (h : model.Configured)
    (hsub : other.layers.Subperm model.layers) : other.Configured :=
  fun layer hlayer => h layer (hsub.subset hlayer)

theorem Identified.subperm {model other : Model} (h : model.Identified)
    (hsub : other.layers.Subperm model.layers) : other.Identified := by
  obtain ⟨layers, hperm, hsublist⟩ := hsub
  have hids : other.ids.Perm (layers.map Layer.id) := hperm.symm.map Layer.id
  have hkept : (layers.map Layer.id).Sublist model.ids := hsublist.map Layer.id
  exact ⟨hids.nodup_iff.mpr (h.distinct.sublist hkept),
    fun id hid => h.nonempty id (hkept.subset (hids.subset hid))⟩

theorem configured_empty : empty.Configured := by simp [Configured, empty]

theorem identified_empty : empty.Identified := ⟨by simp [ids, empty], by simp [ids, empty]⟩

theorem find?_eq_none {model : Model} {id : Text} :
    model.find? (some id) = none ↔ id ∉ model.ids := by
  simp [find?, ids, List.find?_eq_none]

theorem find?_eq_none_iff {model : Model} {given : Option Text} :
    model.find? given = none ↔ ∀ id, given = some id → id ∉ model.ids := by
  cases given with
  | none => simp [find?]
  | some id => simp [find?_eq_none]

/-- An id that is given is nobody's if no layer is found by it. -/
theorem not_mem_of_find? {model : Model} {given : Option Text}
    (h : ∀ id layer, given = some id → model.find? given = some layer → False) :
    ∀ id, given = some id → id ∉ model.ids := by
  intro id hid
  cases hfind : model.find? given with
  | none => exact find?_eq_none_iff.mp hfind id hid
  | some layer => exact (h id layer hid hfind).elim

/-- A layer put in somewhere stands before the others, but for the order. -/
theorem insert_perm {model inserted : Model} {layer : Layer} {position : Option Int}
    (h : model.insert layer position = .ok inserted) :
    inserted.layers.Perm (layer :: model.layers) := by
  cases position with
  | none =>
    simp only [insert, Except.ok.injEq] at h
    subst h
    exact List.perm_append_singleton layer model.layers
  | some position =>
    rw [insert] at h
    split at h <;> simp at h
    subst h
    exact insertAt_perm _ _ _

theorem Configured.of_perm_cons {model other : Model} (h : model.Configured) {layer : Layer}
    (hlayer : layer.Configured) (hperm : other.layers.Perm (layer :: model.layers)) :
    other.Configured := by
  intro l hl
  rcases List.mem_cons.mp (hperm.mem_iff.mp hl) with rfl | hmem
  · exact hlayer
  · exact h l hmem

theorem Identified.of_perm_cons {model other : Model} (h : model.Identified) {layer : Layer}
    (hempty : layer.id.isEmpty = false) (hnew : layer.id ∉ model.ids)
    (hperm : other.layers.Perm (layer :: model.layers)) : other.Identified := by
  have hids : other.ids.Perm (layer.id :: model.ids) := hperm.map Layer.id
  refine ⟨hids.nodup_iff.mpr (List.nodup_cons.mpr ⟨hnew, h.distinct⟩), fun id hid => ?_⟩
  rcases List.mem_cons.mp (hids.mem_iff.mp hid) with rfl | hmem
  · exact hempty
  · exact h.nonempty id hmem

theorem takeOut_perm {model rest : Model} {position : Int} {layer : Layer}
    (h : model.takeOut position = .ok (layer, rest)) :
    model.layers.Perm (layer :: rest.layers) := by
  rw [takeOut] at h
  split at h
  · split at h <;> simp at h
    next hout =>
      obtain ⟨rfl, rfl⟩ := h
      exact takeOut?_perm hout
  · simp at h

/-- A move loses the layer if it cannot be put in again. -/
theorem move_subperm (model : Model) (source target : Int) :
    (model.move source target).2.layers.Subperm model.layers := by
  rw [move]
  split
  · exact List.Subperm.refl _
  split
  · exact List.Subperm.refl _
  next layer rest hout =>
    have hperm := takeOut_perm hout
    split
    · exact (List.sublist_cons_self layer rest.layers).subperm.trans hperm.symm.subperm
    · next moved hmoved => exact ((insert_perm hmoved).trans hperm.symm).subperm

theorem delete_sublist (model : Model) (id : Option Text) :
    (model.delete id).2.layers.Sublist model.layers := List.filter_sublist

/-- An update changes the first layer of the id and no other. -/
theorem updateFirst_eq_ok {change : Layer → Except Fault Layer} {id : Option Text}
    {layers updated : List Layer} (h : updateFirst change id layers = .ok updated) :
    ∃ before layer after changed, layers = before ++ layer :: after ∧ some layer.id = id ∧
      (∀ other ∈ before, some other.id ≠ id) ∧ change layer = .ok changed ∧
      updated = before ++ changed :: after := by
  induction layers generalizing updated with
  | nil => simp [updateFirst] at h
  | cons first rest ih =>
    rw [updateFirst] at h
    split at h
    next hid =>
      split at h <;> simp at h
      next changed hchanged =>
        subst h
        exact ⟨[], first, rest, changed, rfl, hid, by simp, hchanged, rfl⟩
    next hid =>
      split at h <;> simp at h
      next changed hchanged =>
        subst h
        obtain ⟨before, layer, after, new, rfl, hlayer, hbefore, hnew, rfl⟩ := ih hchanged
        refine ⟨first :: before, layer, after, new, rfl, hlayer, ?_, hnew, rfl⟩
        rintro other (_ | ⟨_, hother⟩)
        · exact hid
        · exact hbefore other hother

theorem update_eq_ok {model updated : Model} {id : Option Text} {key : Text} {value : Value}
    (h : model.update id key value = .ok updated) :
    ∃ before layer after changed, model.layers = before ++ layer :: after ∧ some layer.id = id ∧
      (∀ other ∈ before, some other.id ≠ id) ∧ layer.update key value = .ok changed ∧
      updated.layers = before ++ changed :: after := by
  obtain ⟨layers, hlayers, rfl⟩ := map_eq_ok.mp h
  exact updateFirst_eq_ok hlayers

theorem update_ids {model updated : Model} {id : Option Text} {key : Text} {value : Value}
    (h : model.update id key value = .ok updated) : updated.ids = model.ids := by
  obtain ⟨before, layer, after, changed, hmodel, -, -, hchanged, hupdated⟩ := update_eq_ok h
  obtain ⟨field, -, -, held, -, rfl⟩ := Layer.update_eq_ok hchanged
  simp [ids, hmodel, hupdated]

theorem Configured.updated {model updated : Model} (h : model.Configured) {id : Option Text}
    {key : Text} {value : Value} (hupdate : model.update id key value = .ok updated) :
    updated.Configured := by
  obtain ⟨before, layer, after, changed, hmodel, -, -, hchanged, hupdated⟩ := update_eq_ok hupdate
  intro l hl
  rw [Configured, hmodel] at h
  rw [hupdated, List.mem_append, List.mem_cons] at hl
  rcases hl with hbefore | rfl | hafter
  · exact h l (by simp [hbefore])
  · exact (h layer (by simp)).update hchanged
  · exact h l (by simp [hafter])

end Model

/-! ### Ids -/

/-- A settled id is new if the given one is, and the one that is drawn instead of it. -/
theorem IdSource.FreshFor.settle {ids : IdSource} {given : Option Text} {model : Model}
    (h : ids.FreshFor (ids.settle given).2 model)
    (hgiven : ∀ id, given = some id → id ∉ model.ids) :
    (ids.settle given).1.isEmpty = false ∧ (ids.settle given).1 ∉ model.ids := by
  have hdraw : ids.FreshFor ids.draw.2 model →
      ids.draw.1.isEmpty = false ∧ ids.draw.1 ∉ model.ids := fun hfresh => hfresh (by simp [draw])
  cases given with
  | none => exact hdraw h
  | some id =>
    rw [IdSource.settle] at h ⊢
    split at h
    next hempty => simpa [hempty] using hdraw h
    next hempty => simpa [hempty] using hgiven id rfl

theorem Model.add_eq_ok {model added : Model} {kind : Value} {position : Option Int}
    {id : Option Text} {ids after : IdSource} {layer : Layer}
    (h : model.add kind position id ids = (.ok (layer, added), after)) :
    ∃ k, Kind.ofValue? kind = some k ∧ (∀ given, id = some given → given ∉ model.ids) ∧
      layer = Layer.ofKind (ids.settle id).1 k ∧ model.insert layer position = .ok added ∧
      after = (ids.settle id).2 := by
  unfold add at h
  split at h
  · simp at h
  · simp at h
  next id _ _ k hkind hnew =>
    simp only [Prod.mk.injEq, map_eq_ok] at h
    obtain ⟨⟨inserted, hinsert, rfl, rfl⟩, rfl⟩ := h
    exact ⟨k, hkind, not_mem_of_find? hnew, rfl, hinsert, rfl⟩

namespace Payload

/-! ### Entries -/

theorem updateAll_eq_ok {layer updated : Layer} {members : Members} (h : layer.Configured)
    (hupdate : updateAll layer members = .ok updated) :
    updated.id = layer.id ∧ updated.kind = layer.kind ∧ updated.Configured := by
  induction members generalizing layer with
  | nil =>
    simp only [updateAll, Except.ok.injEq] at hupdate
    subst hupdate
    exact ⟨rfl, rfl, h⟩
  | cons member rest ih =>
    obtain ⟨key, value⟩ := member
    rw [updateAll] at hupdate
    split at hupdate
    · split at hupdate
      · simp at hupdate
      next next hnext =>
        obtain ⟨hid, hkind, hconfigured⟩ := ih (h.update hnext) hupdate
        obtain ⟨field, -, -, held, -, rfl⟩ := Layer.update_eq_ok hnext
        exact ⟨hid, hkind, hconfigured⟩
    · exact ih h hupdate

theorem readLayer_eq_ok {position : Nat} {head : Head} {id : Text} {layer : Layer}
    (h : readLayer position head id = .ok layer) :
    layer.id = id ∧ layer.kind = head.kind ∧ layer.Configured := by
  rw [readLayer] at h
  split at h
  · simp at h
  · exact updateAll_eq_ok (Layer.configured_ofKind id head.kind) h

/-- What it takes for an entry to be read: its id is nobody's yet, and one is settled. -/
theorem readEntry_eq_ok {model : Model} {position : Nat} {entry : Value} {ids after : IdSource}
    {layer : Layer} (h : readEntry model position entry ids = (.ok layer, after)) :
    ∃ head, readHead position entry = .ok head ∧
      (∀ given, head.id = some given → given ∉ model.ids) ∧
      readLayer position head (ids.settle head.id).1 = .ok layer ∧
      after = (ids.settle head.id).2 := by
  rw [readEntry] at h
  split at h
  · simp at h
  next head hhead =>
    split at h
    · simp at h
    next hnew =>
      simp only [Prod.mk.injEq] at h
      obtain ⟨hlayer, rfl⟩ := h
      exact ⟨head, hhead, Model.not_mem_of_find? hnew, hlayer, rfl⟩

theorem readEntries_configured {model read : Model} {entries : List Value} {ids after : IdSource}
    (h : model.Configured) (hread : readEntries model entries ids = (.ok read, after)) :
    read.Configured := by
  induction entries generalizing model ids with
  | nil =>
    simp only [readEntries, Prod.mk.injEq, Except.ok.injEq] at hread
    exact hread.1 ▸ h
  | cons entry rest ih =>
    rw [readEntries] at hread
    split at hread
    · simp at hread
    next layer _ hentry =>
      obtain ⟨head, -, -, hlayer, -⟩ := readEntry_eq_ok hentry
      refine ih (h.of_perm_cons ?_ (List.perm_append_singleton layer model.layers)) hread
      exact (readLayer_eq_ok hlayer).2.2

theorem readEntries_identified {model read : Model} {entries : List Value}
    {ids after : IdSource} (h : model.Identified) (hfresh : FreshDraws model entries ids)
    (hread : readEntries model entries ids = (.ok read, after)) : read.Identified := by
  induction entries generalizing model ids with
  | nil =>
    simp only [readEntries, Prod.mk.injEq, Except.ok.injEq] at hread
    exact hread.1 ▸ h
  | cons entry rest ih =>
    rw [readEntries] at hread
    rw [FreshDraws] at hfresh
    split at hread
    · simp at hread
    next layer _ hentry =>
      obtain ⟨head, -, hgiven, hlayer, hafter⟩ := readEntry_eq_ok hentry
      rw [hentry] at hfresh
      obtain ⟨hdraw, hrest⟩ := hfresh
      have hid := (readLayer_eq_ok hlayer).1
      obtain ⟨hempty, hnew⟩ := (hafter ▸ hdraw).settle hgiven
      exact ih (h.of_perm_cons (hid ▸ hempty) (hid ▸ hnew)
        (List.perm_append_singleton layer model.layers)) hrest hread

end Payload

namespace Workspace

/-! ### Steps and runs -/

variable {workspace : Workspace}

/-- What a step does to a model: it loses layers or puts them in another order, or it succeeds in
adding a layer, in updating one, or in reading others. -/
inductive StepTo (workspace : Workspace) : Edit → Model → Prop
  | fewer {edit : Edit} {model : Model} (h : model.layers.Subperm workspace.model.layers) :
      StepTo workspace edit model
  | added {kind : Value} {position : Option Int} {id : Option Text} {layer : Layer} {model : Model}
      {after : IdSource}
      (h : workspace.model.add kind position id workspace.ids = (.ok (layer, model), after)) :
      StepTo workspace (.add kind position id) model
  | updated {id : Option Text} {key : Text} {value : Value} {model : Model}
      (h : workspace.model.update id key value = .ok model) :
      StepTo workspace (.update id key value) model
  | read {entries : List Value} {model : Model} {after : IdSource}
      (h : Payload.readEntries .empty entries workspace.ids = (.ok model, after)) :
      StepTo workspace (.load (.list entries)) model

theorem stepTo_apply (workspace : Workspace) (edit : Edit) :
    workspace.StepTo edit (workspace.apply edit).2.model := by
  cases edit with
  | add kind position id =>
    rw [apply]
    split
    next hadd => exact .added hadd
    · exact .fewer (List.Subperm.refl _)
  | delete id => exact .fewer (Model.delete_sublist _ id).subperm
  | move source target => exact .fewer (Model.move_subperm _ source target)
  | update id key value =>
    rw [apply]
    split
    next hupdate => exact .updated hupdate
    · exact .fewer (List.Subperm.refl _)
  | load payload =>
    rw [apply]
    split
    next hread =>
      cases payload with
      | list entries => exact .read hread
      | _ => simp [Model.ofPayload] at hread
    · exact .fewer (List.Subperm.refl _)

theorem apply_configured (h : workspace.model.Configured) (edit : Edit) :
    (workspace.apply edit).2.model.Configured := by
  have hstep := workspace.stepTo_apply edit
  generalize (workspace.apply edit).2.model = model at hstep ⊢
  cases hstep with
  | fewer hsub => exact h.subperm hsub
  | added hadd =>
    obtain ⟨k, -, -, rfl, hinsert, -⟩ := Model.add_eq_ok hadd
    exact h.of_perm_cons (Layer.configured_ofKind _ k) (Model.insert_perm hinsert)
  | updated hupdate => exact h.updated hupdate
  | read hread => exact Payload.readEntries_configured Model.configured_empty hread

theorem apply_identified (h : workspace.model.Identified) {edit : Edit}
    (hfresh : workspace.FreshStep edit) : (workspace.apply edit).2.model.Identified := by
  have hstep := workspace.stepTo_apply edit
  generalize (workspace.apply edit).2.model = model at hstep ⊢
  cases hstep with
  | fewer hsub => exact h.subperm hsub
  | added hadd =>
    rw [FreshStep, hadd] at hfresh
    obtain ⟨k, -, hgiven, rfl, hinsert, rfl⟩ := Model.add_eq_ok hadd
    obtain ⟨hempty, hnew⟩ := hfresh.settle hgiven
    exact h.of_perm_cons hempty hnew (Model.insert_perm hinsert)
  | updated hupdate =>
    have hids := Model.update_ids hupdate
    exact ⟨hids ▸ h.distinct, hids ▸ h.nonempty⟩
  | read hread => exact Payload.readEntries_identified Model.identified_empty hfresh hread

theorem run_configured (h : workspace.model.Configured) (edits : List Edit) :
    (workspace.run edits).model.Configured := by
  induction edits generalizing workspace with
  | nil => exact h
  | cons edit rest ih => exact ih (apply_configured h edit)

theorem run_identified (h : workspace.model.Identified) {edits : List Edit}
    (hfresh : workspace.FreshRun edits) : (workspace.run edits).model.Identified := by
  induction edits generalizing workspace with
  | nil => exact h
  | cons edit rest ih => exact ih (apply_identified h hfresh.1) hfresh.2

theorem FreshRun.of_append {done rest : List Edit} (h : workspace.FreshRun (done ++ rest)) :
    workspace.FreshRun done := by
  induction done generalizing workspace with
  | nil => trivial
  | cons edit done ih => exact ⟨h.1, ih h.2⟩

/-- Throughout a session that starts with no layers, the ids are distinct and not empty and every
layer is configured, whether its steps succeed or not. -/
theorem run_start_invariant {ids : IdSource} {edits done : List Edit}
    (hfresh : (start ids).FreshRun edits) (hdone : done <+: edits) :
    ((start ids).run done).model.Identified ∧ ((start ids).run done).model.Configured := by
  obtain ⟨rest, rfl⟩ := hdone
  exact ⟨run_identified Model.identified_empty hfresh.of_append,
    run_configured Model.configured_empty done⟩

/-- A session with steps of every sort, of which the third, the fifth and the sixth end in a
fault. -/
def mixedSession : List Edit := [
  .add (.str "linear") none none,
  .add (.str "gru") (some (-1)) (some "a"),
  .update (some "a") "hidden_size" (.str "wide"),
  .update (some "a") "hidden_size" (.real .tenth),
  .move 0 (maxPosition + 1),
  .load (.list [.obj [("type", .str "relu")], .obj [("type", .str "linear"), ("id", .str "2")]]),
  .add (.str "dropout") none (some ""),
  .delete (some "a")]

theorem run_start_invariant_mixedSession :
    (start .counting).FreshRun mixedSession ∧
      ((start .counting).run mixedSession).model.Identified ∧
      ((start .counting).run mixedSession).model.Configured :=
  have hfresh : (start .counting).FreshRun mixedSession := by decide +kernel
  ⟨hfresh, run_start_invariant hfresh (List.prefix_refl _)⟩

end Workspace

/-- A model that some session leads to. -/
def Model.Reachable (model : Model) : Prop :=
  ∃ ids edits, ((Workspace.start ids).run edits).model = model

theorem Model.Reachable.configured {model : Model} (h : model.Reachable) : model.Configured := by
  obtain ⟨ids, edits, rfl⟩ := h
  exact Workspace.run_configured Model.configured_empty edits

end LayerStack
