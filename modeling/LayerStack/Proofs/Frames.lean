import LayerStack.Proofs.Atomicity
import LayerStack.Proofs.Clamping

/-! What each step of a session changes, and what it leaves as it was.  As long as the ids that are
drawn are nobody's at that moment, an id is the id of one layer at most; so a step that names an id
is about that one layer, and all others keep their ids, kinds, configurations and order.  A move
only puts a layer in another place, unless there is no such place: then the layer is lost. -/

namespace LayerStack

/-! ### Ids that are drawn -/

/-- An id that is drawn, and the model at that moment. -/
structure Draw where
  id : Text
  model : Model

/-- No layer has the id that is drawn. -/
def Draw.IsNew (draw : Draw) : Prop := draw.id ∉ draw.model.ids

instance : DecidablePred Draw.IsNew := fun draw =>
  inferInstanceAs (Decidable (draw.id ∉ draw.model.ids))

/-- What is drawn for a model between two states of the id source: one id at most. -/
def IdSource.drawsTo (before after : IdSource) (model : Model) : List Draw :=
  if after.next = before.next then [] else [⟨before.draw.1, model⟩]

/-- What is drawn for the entries that come after the layers of a model. -/
def Payload.draws (model : Model) : List Value → IdSource → List Draw
  | [], _ => []
  | entry :: rest, ids =>
    match readEntry model (model.layers.length + 1) entry ids with
    | (.error _, after) => ids.drawsTo after model
    | (.ok layer, after) => ids.drawsTo after model ++ draws ⟨model.layers ++ [layer]⟩ rest after

/-- What a step draws. -/
def Workspace.draws (workspace : Workspace) : Edit → List Draw
  | .add kind position id =>
    workspace.ids.drawsTo (workspace.model.add kind position id workspace.ids).2 workspace.model
  | .load (.list entries) => Payload.draws .empty entries workspace.ids
  | _ => []

/-- What is drawn in a session. -/
def Workspace.drawsOf (workspace : Workspace) : List Edit → List Draw
  | [] => []
  | edit :: rest => workspace.draws edit ++ (workspace.apply edit).2.drawsOf rest

theorem IdSource.settle_not_mem {ids : IdSource} {given : Option Text} {model : Model}
    (hnew : ∀ draw ∈ ids.drawsTo (ids.settle given).2 model, draw.IsNew)
    (hgiven : ∀ id, given = some id → id ∉ model.ids) : (ids.settle given).1 ∉ model.ids := by
  have hdraw : (∀ draw ∈ ids.drawsTo ids.draw.2 model, draw.IsNew) → ids.draw.1 ∉ model.ids := by
    intro h
    exact h ⟨ids.draw.1, model⟩ (by simp [drawsTo, draw])
  cases given with
  | none => exact hdraw hnew
  | some id =>
    rw [settle] at hnew ⊢
    split at hnew
    next hempty => simpa [hempty] using hdraw hnew
    next hempty => simpa [hempty] using hgiven id rfl

theorem Model.nodup_ids_of_perm_cons {model other : Model} {layer : Layer}
    (h : model.ids.Nodup) (hnew : layer.id ∉ model.ids)
    (hperm : other.layers.Perm (layer :: model.layers)) : other.ids.Nodup := by
  have hids : other.ids.Perm (layer.id :: model.ids) := hperm.map Layer.id
  exact hids.nodup_iff.mpr (List.nodup_cons.mpr ⟨hnew, h⟩)

theorem Payload.nodup_ids_readEntries {model read : Model} {entries : List Value}
    {ids after : IdSource} (h : model.ids.Nodup)
    (hnew : ∀ draw ∈ draws model entries ids, draw.IsNew)
    (hread : readEntries model entries ids = (.ok read, after)) : read.ids.Nodup := by
  induction entries generalizing model ids with
  | nil =>
    simp only [readEntries, Prod.mk.injEq, Except.ok.injEq] at hread
    exact hread.1 ▸ h
  | cons entry rest ih =>
    rw [readEntries] at hread
    rw [draws] at hnew
    split at hread
    · simp at hread
    next layer _ hentry =>
      obtain ⟨head, -, hgiven, hlayer, rfl⟩ := readEntry_eq_ok hentry
      rw [hentry] at hnew
      obtain ⟨hfirst, hrest⟩ := List.forall_mem_append.mp hnew
      have hid := (readLayer_eq_ok hlayer).1
      have hlayerNew : layer.id ∉ model.ids := hid ▸ IdSource.settle_not_mem hfirst hgiven
      exact ih (Model.nodup_ids_of_perm_cons h hlayerNew
        (List.perm_append_singleton layer model.layers)) hrest hread

namespace Workspace

theorem nodup_ids_apply {workspace : Workspace} {edit : Edit} (h : workspace.model.ids.Nodup)
    (hnew : ∀ draw ∈ workspace.draws edit, draw.IsNew) :
    (workspace.apply edit).2.model.ids.Nodup := by
  have hstep := workspace.stepTo_apply edit
  generalize (workspace.apply edit).2.model = model at hstep ⊢
  cases hstep with
  | fewer hsub =>
    obtain ⟨layers, hperm, hsublist⟩ := hsub
    exact (hperm.symm.map Layer.id).nodup_iff.mpr (h.sublist (hsublist.map Layer.id))
  | added hadd =>
    rw [draws, hadd] at hnew
    obtain ⟨k, -, hgiven, rfl, hinsert, rfl⟩ := Model.add_eq_ok hadd
    exact Model.nodup_ids_of_perm_cons h (IdSource.settle_not_mem hnew hgiven)
      (Model.insert_perm hinsert)
  | updated hupdate => exact Model.update_ids hupdate ▸ h
  | read hread => exact Payload.nodup_ids_readEntries (by simp [Model.ids, Model.empty]) hnew hread

theorem drawsOf_append (workspace : Workspace) (done rest : List Edit) :
    workspace.drawsOf (done ++ rest) =
      workspace.drawsOf done ++ (workspace.run done).drawsOf rest := by
  induction done generalizing workspace with
  | nil => rfl
  | cons edit done ih =>
    show workspace.draws edit ++ (workspace.apply edit).2.drawsOf (done ++ rest) = _
    rw [ih, ← List.append_assoc]
    rfl

theorem nodup_ids_run {workspace : Workspace} {edits : List Edit} (h : workspace.model.ids.Nodup)
    (hnew : ∀ draw ∈ workspace.drawsOf edits, draw.IsNew) :
    (workspace.run edits).model.ids.Nodup := by
  induction edits generalizing workspace with
  | nil => exact h
  | cons edit rest ih =>
    obtain ⟨hfirst, hrest⟩ := List.forall_mem_append.mp hnew
    exact ih (nodup_ids_apply h hfirst) hrest

end Workspace

/-! ### Places -/

/-- The place that a position among `n` items counts to, which may lie outside. -/
def placeOf (n : Nat) (position : Int) : Int := if position < 0 then n + position else position

/-- The place of an item that is put in at a position among `n` items: the nearest that there is,
or the end if no position is given. -/
def placeFor (n : Nat) : Option Int → Int
  | none => n
  | some position => max 0 (min n (placeOf n position))

/-- One more item at a place, and all others in their order. -/
def AddedAt {α : Type} (place : Int) (x : α) (items more : List α) : Prop :=
  ∃ before after, before.length = place ∧ items = before ++ after ∧ more = before ++ x :: after

theorem place?_eq_some_iff {n place : Nat} {position : Int} :
    place? n position = some place ↔ (place : Int) = placeOf n position ∧ place < n := by
  unfold place? placeOf
  split <;> simp only [Option.ite_none_right_eq_some, Option.some.injEq] <;> omega

theorem addedAt_insertAt {α : Type} (items : List α) (position : Int) (x : α) :
    AddedAt (placeFor items.length (some position)) x items (insertAt items position x) := by
  have hle := insertionPlace_le items.length position
  have hplace : (insertionPlace items.length position : Int) =
      placeFor items.length (some position) := by
    show _ = max 0 (min (items.length : Int) (placeOf items.length position))
    unfold insertionPlace placeOf
    split <;> omega
  refine ⟨items.take (insertionPlace items.length position),
    items.drop (insertionPlace items.length position), ?_, by simp, rfl⟩
  rw [← hplace, List.length_take, Nat.min_eq_left hle]

theorem addedAt_eraseIdx {α : Type} {items : List α} {place : Nat} {x : α}
    (h : items[place]? = some x) : AddedAt place x (items.eraseIdx place) items := by
  obtain ⟨hlt, rfl⟩ := List.getElem?_eq_some_iff.mp h
  refine ⟨items.take place, items.drop (place + 1), ?_,
    List.eraseIdx_eq_take_drop_succ .., ?_⟩
  · rw [List.length_take, Nat.min_eq_left hlt.le]
  · rw [List.getElem_cons_drop, List.take_append_drop]

namespace Model

theorem addedAt_of_insert {model inserted : Model} {layer : Layer} {position : Option Int}
    (h : model.insert layer position = .ok inserted) :
    AddedAt (placeFor model.layers.length position) layer model.layers inserted.layers := by
  cases position with
  | none =>
    obtain rfl : ⟨model.layers ++ [layer]⟩ = inserted := by simpa [insert] using h
    exact ⟨model.layers, [], rfl, by simp, rfl⟩
  | some position =>
    rw [insert] at h
    split at h <;> simp at h
    subst h
    exact addedAt_insertAt _ _ _

theorem addedAt_of_takeOut {model rest : Model} {position : Int} {layer : Layer}
    (h : model.takeOut position = .ok (layer, rest)) :
    AddedAt (placeOf model.layers.length position) layer rest.layers model.layers := by
  unfold takeOut at h
  split at h
  · split at h <;> simp at h
    next hout =>
      obtain ⟨rfl, rfl⟩ := h
      obtain ⟨place, hplace, hlayer, rfl⟩ := takeOut?_eq_some_iff.mp hout
      rw [← (place?_eq_some_iff.mp hplace).1]
      exact addedAt_eraseIdx hlayer
  · simp at h

theorem takeOut_eq_error {model : Model} {position : Int} {fault : Fault}
    (h : model.takeOut position = .error fault) :
    isPosition position = false ∨ placeOf model.layers.length position < 0 ∨
      model.layers.length ≤ placeOf model.layers.length position := by
  by_contra hplace
  simp only [not_or, Bool.not_eq_false, not_lt, not_le] at hplace
  obtain ⟨hposition, hleast, hmost⟩ := hplace
  obtain ⟨place, hplace⟩ := Int.eq_ofNat_of_zero_le hleast
  have hplace : place? model.layers.length position = some place :=
    place?_eq_some_iff.mpr ⟨hplace.symm, by omega⟩
  obtain ⟨layer, htaken⟩ := takeOut_of_place? hposition hplace
  simp [htaken] at h

end Model

/-! ### Steps -/

/-- A layer with one field set, and all else as it was. -/
structure Layer.SetTo (field : Field) (value : Value) (layer changed : Layer) : Prop where
  id : changed.id = layer.id
  kind : changed.kind = layer.kind
  keys : changed.config.keys = layer.config.keys
  held : changed.config.get? field.key = some value
  others : ∀ key, key ≠ field.key → changed.config.get? key = layer.config.get? key

namespace Workspace

/-- What a step that is not a load does to a model, by its answer. -/
inductive Frame (model : Model) : Edit → Except Fault Answer → Model → Prop
  /-- One layer is put in, with the defaults of its kind and an id that was nobody's. -/
  | added {name : Value} {kind : Kind} {position : Option Int} {given : Option Text} {id : Text}
      {after : Model} (hkind : Kind.ofValue? name = some kind)
      (hgiven : ∀ text, given = some text → text.isEmpty = false → id = text)
      (hnew : id ∉ model.ids)
      (hplace : AddedAt (placeFor model.layers.length position) ⟨id, kind, kind.defaultConfig⟩
        model.layers after.layers) :
      Frame model (.add name position given)
        (.ok (.layer ⟨id, kind, kind.defaultConfig⟩)) after
  | notAdded {name : Value} {position : Option Int} {given : Option Text} {fault : Fault}
      (h : Kind.ofValue? name = none ∨ (∃ id ∈ model.ids, given = some id) ∨
        ∃ place, position = some place ∧ isPosition place = false) :
      Frame model (.add name position given) (.error fault) model
  /-- The one layer of the id is left out. -/
  | deleted {before after : List Layer} {layer : Layer}
      (hmodel : model.layers = before ++ layer :: after)
      (honly : ∀ other ∈ before ++ after, other.id ≠ layer.id) :
      Frame model (.delete (some layer.id)) (.ok (.deleted true)) ⟨before ++ after⟩
  | nothingDeleted {id : Option Text} (h : ∀ layer ∈ model.layers, some layer.id ≠ id) :
      Frame model (.delete id) (.ok (.deleted false)) model
  /-- The one layer of the id has the field set to the value, clamped. -/
  | updated {before after : List Layer} {layer changed : Layer} {field : Field} {value : Value}
      (hmodel : model.layers = before ++ layer :: after)
      (honly : ∀ other ∈ before ++ after, other.id ≠ layer.id)
      (hfield : field ∈ layer.kind.fields) (htakes : field.range.Takes value)
      (hset : layer.SetTo field (field.range.clamp value) changed) :
      Frame model (.update (some layer.id) (Text.ofString field.key) value) (.ok .silent)
        ⟨before ++ changed :: after⟩
  | notUpdated {id : Option Text} {key : Text} {value : Value} {fault : Fault}
      (h : ∀ layer ∈ model.layers, some layer.id = id → ∀ field ∈ layer.kind.fields,
        Text.ofString field.key = key → ¬ field.range.Takes value) :
      Frame model (.update id key value) (.error fault) model
  | stayed {position : Int} : Frame model (.move position position) (.ok .silent) model
  /-- One layer is put in another place; the others stay in their order. -/
  | moved {source target : Int} {layer : Layer} {others : List Layer} {after : Model}
      (hsource : AddedAt (placeOf model.layers.length source) layer others model.layers)
      (htarget : AddedAt (placeFor others.length (some target)) layer others after.layers) :
      Frame model (.move source target) (.ok .silent) after
  | notMoved {source target : Int} {fault : Fault}
      (h : isPosition source = false ∨ placeOf model.layers.length source < 0 ∨
        model.layers.length ≤ placeOf model.layers.length source) :
      Frame model (.move source target) (.error fault) model
  /-- One layer is lost, as it can be put in at positions of 64 bits only. -/
  | lost {source target : Int} {layer : Layer} {others : List Layer}
      (hne : source ≠ target) (htarget : isPosition target = false)
      (hsource : AddedAt (placeOf model.layers.length source) layer others model.layers) :
      Frame model (.move source target) (.error .positionTooLarge) ⟨others⟩

end Workspace

namespace Model

theorem ne_of_split {model : Model} {before after : List Layer} {layer : Layer}
    (h : model.ids.Nodup) (hmodel : model.layers = before ++ layer :: after) :
    ∀ other ∈ before ++ after, other.id ≠ layer.id := by
  have hmiddle : (before ++ layer :: after).Perm (layer :: (before ++ after)) := List.perm_middle
  have hperm : model.ids.Perm (layer.id :: (before ++ after).map Layer.id) := by
    rw [ids, hmodel]
    exact hmiddle.map Layer.id
  have hnodup := List.nodup_cons.mp (hperm.nodup_iff.mp h)
  intro other hother hid
  exact hnodup.1 (hid ▸ List.mem_map_of_mem hother)

/-- The layers without an id are the others, if one layer has it. -/
theorem delete_of_split {model : Model} {before after : List Layer} {layer : Layer}
    (hmodel : model.layers = before ++ layer :: after)
    (honly : ∀ other ∈ before ++ after, other.id ≠ layer.id) :
    model.delete (some layer.id) = (true, ⟨before ++ after⟩) := by
  obtain ⟨hbefore, hafter⟩ := List.forall_mem_append.mp honly
  have hrest : (model.layers.filter fun other => decide (some other.id ≠ some layer.id)) =
      before ++ after := by
    rw [hmodel, List.filter_append, List.filter_cons_of_neg (by simp),
      List.filter_eq_self.mpr (by simpa using hbefore),
      List.filter_eq_self.mpr (by simpa using hafter)]
  have hlength : (before ++ after).length ≠ model.layers.length := by simp [hmodel]
  simp only [delete, hrest, hlength, ne_eq, not_false_eq_true, decide_true]

theorem delete_of_forall_ne {model : Model} {id : Option Text}
    (h : ∀ layer ∈ model.layers, some layer.id ≠ id) : model.delete id = (false, model) := by
  have hrest : (model.layers.filter fun layer => decide (some layer.id ≠ id)) = model.layers :=
    List.filter_eq_self.mpr (by simpa using h)
  simp only [delete, hrest, ne_eq, not_true_eq_false, decide_false]

/-- An update is about the one layer of its id. -/
theorem updateFirst_of_split {change : Layer → Except Fault Layer} {before after : List Layer}
    {layer : Layer} (hbefore : ∀ other ∈ before, other.id ≠ layer.id) :
    updateFirst change (some layer.id) (before ++ layer :: after) =
      (change layer).map fun changed => before ++ changed :: after := by
  induction before with
  | nil => cases hchange : change layer <;> simp [updateFirst, hchange, Except.map]
  | cons first rest ih =>
    obtain ⟨hfirst, hrest⟩ := List.forall_mem_cons.mp hbefore
    have hne : some first.id ≠ some layer.id := by simpa using hfirst
    rw [List.cons_append, updateFirst, if_neg hne, ih hrest]
    cases change layer <;> rfl

theorem add_eq_error {model : Model} {name : Value} {position : Option Int} {given : Option Text}
    {ids after : IdSource} {fault : Fault}
    (h : model.add name position given ids = (.error fault, after)) :
    Kind.ofValue? name = none ∨ (∃ id ∈ model.ids, given = some id) ∨
      ∃ place, position = some place ∧ isPosition place = false := by
  unfold add at h
  split at h
  next id other hfind =>
    refine .inr (.inl ⟨id, ?_, rfl⟩)
    by_contra hnew
    simp [find?_eq_none.mpr hnew] at hfind
  · exact .inl (by assumption)
  next =>
    simp only [Prod.mk.injEq] at h
    cases position with
    | none => simp [insert, Except.map] at h
    | some place =>
      refine .inr (.inr ⟨place, rfl, ?_⟩)
      cases hposition : isPosition place with
      | false => rfl
      | true => simp [insert, hposition, Except.map] at h

end Model

theorem Layer.setTo_update {layer : Layer} {field : Field} (h : layer.Configured)
    (hfield : field ∈ layer.kind.fields) (value : Value) :
    layer.SetTo field value { layer with config := layer.config.set field.key value } where
  id := rfl
  kind := rfl
  keys := by
    have hmem : field.key ∈ layer.config.keys := h.keys ▸ List.mem_map_of_mem hfield
    exact Entries.keys_set_of_mem _ _ hmem
  held := Entries.get?_set_self _ _ _
  others key hkey := Entries.get?_set_of_ne _ _ (Ne.symm hkey)

namespace Workspace

variable {workspace : Workspace}

theorem frame_add {name : Value} {position : Option Int} {given : Option Text}
    (hnew : ∀ draw ∈ workspace.draws (.add name position given), draw.IsNew) :
    Frame workspace.model (.add name position given)
      (workspace.apply (.add name position given)).1
      (workspace.apply (.add name position given)).2.model := by
  cases hadd : workspace.model.add name position given workspace.ids with
  | mk result ids =>
    rw [draws, hadd] at hnew
    rw [apply, hadd]
    cases result with
    | error fault => exact .notAdded (Model.add_eq_error hadd)
    | ok added =>
      obtain ⟨layer, after⟩ := added
      obtain ⟨kind, hkind, hgiven, rfl, hinsert, rfl⟩ := Model.add_eq_ok hadd
      refine .added hkind ?_ (IdSource.settle_not_mem hnew hgiven) (Model.addedAt_of_insert hinsert)
      rintro text rfl htext
      rw [IdSource.settle_some _ htext]

theorem frame_delete (h : workspace.model.ids.Nodup) (id : Option Text) :
    Frame workspace.model (.delete id) (workspace.apply (.delete id)).1
      (workspace.apply (.delete id)).2.model := by
  by_cases hthere : ∃ layer ∈ workspace.model.layers, some layer.id = id
  · obtain ⟨layer, hlayer, rfl⟩ := hthere
    obtain ⟨before, after, hmodel⟩ := List.append_of_mem hlayer
    have honly := Model.ne_of_split h hmodel
    rw [apply, Model.delete_of_split hmodel honly]
    exact .deleted hmodel honly
  · have hnone : ∀ layer ∈ workspace.model.layers, some layer.id ≠ id := by simpa using hthere
    rw [apply, Model.delete_of_forall_ne hnone]
    exact .nothingDeleted hnone

theorem frame_update (h : workspace.model.ids.Nodup) (hconfigured : workspace.model.Configured)
    (id : Option Text) (key : Text) (value : Value) :
    Frame workspace.model (.update id key value) (workspace.apply (.update id key value)).1
      (workspace.apply (.update id key value)).2.model := by
  rw [apply]
  cases hupdate : workspace.model.update id key value with
  | ok updated =>
    obtain ⟨before, layer, after, changed, hmodel, rfl, -, hchanged, hupdated⟩ :=
      Model.update_eq_ok hupdate
    obtain ⟨field, hfield, rfl, htakes, rfl⟩ := Layer.update_eq_ok_iff.mp hchanged
    have hlayer : layer ∈ workspace.model.layers := by simp [hmodel]
    have hset := Layer.setTo_update (hconfigured layer hlayer) hfield (field.range.clamp value)
    obtain rfl : updated = ⟨_⟩ := congrArg Model.mk hupdated
    exact .updated hmodel (Model.ne_of_split h hmodel) hfield htakes hset
  | error fault =>
    refine .notUpdated ?_
    rintro layer hlayer rfl field hfield rfl htakes
    obtain ⟨before, after, hmodel⟩ := List.append_of_mem hlayer
    have honly := List.forall_mem_append.mp (Model.ne_of_split h hmodel)
    have hchanged := Layer.update_eq_ok_iff.mpr ⟨field, hfield, rfl, htakes, rfl⟩
    simp [Model.update, hmodel, Model.updateFirst_of_split honly.1, hchanged, Except.map] at hupdate

theorem frame_move (source target : Int) :
    Frame workspace.model (.move source target) (workspace.apply (.move source target)).1
      (workspace.apply (.move source target)).2.model := by
  rw [apply, Model.move]
  by_cases hsame : source = target
  · subst hsame
    rw [if_pos rfl]
    exact .stayed
  rw [if_neg hsame]
  cases hout : workspace.model.takeOut source with
  | error fault => exact .notMoved (Model.takeOut_eq_error hout)
  | ok taken =>
    obtain ⟨layer, rest⟩ := taken
    have hsource := Model.addedAt_of_takeOut hout
    cases hinsert : rest.insert layer (some target) with
    | error fault =>
      obtain ⟨htarget, rfl⟩ := Model.insert_eq_error hinsert
      simp only [hinsert]
      exact .lost hsame htarget hsource
    | ok moved =>
      simp only [hinsert]
      exact .moved hsource (Model.addedAt_of_insert hinsert)

/-- What a step that is not a load changes in a session, as long as every id that is drawn is
nobody's at that moment. -/
theorem frame_apply {ids : IdSource} {done : List Edit} {edit : Edit}
    (hload : ∀ payload, edit ≠ .load payload)
    (hnew : ∀ draw ∈ (start ids).drawsOf (done ++ [edit]), draw.IsNew) :
    Frame ((start ids).run done).model edit (((start ids).run done).apply edit).1
      (((start ids).run done).apply edit).2.model := by
  rw [drawsOf_append] at hnew
  obtain ⟨hdone, hlast⟩ := List.forall_mem_append.mp hnew
  have hstart : (start ids).model.ids.Nodup := by simp [start, Model.ids, Model.empty]
  have hnodup := nodup_ids_run hstart hdone
  have hconfigured : ((start ids).run done).model.Configured :=
    run_configured Model.configured_empty done
  cases edit with
  | add name position given => exact frame_add (by simpa [drawsOf] using hlast)
  | delete id => exact frame_delete hnodup id
  | move source target => exact frame_move source target
  | update id key value => exact frame_update hnodup hconfigured id key value
  | load payload => exact absurd rfl (hload payload)

/-- A session that adds two layers, the first with an id that is drawn. -/
def pairSession : List Edit := [.add (.str "relu") none none, .add (.str "linear") none (some "b")]

theorem frame_apply_pairSession :
    let workspace := (start .counting).run pairSession
    (∀ payload, moveBeyond ≠ .load payload) ∧
      (∀ draw ∈ (start .counting).drawsOf (pairSession ++ [moveBeyond]), draw.IsNew) ∧
      Frame workspace.model moveBeyond (workspace.apply moveBeyond).1
        (workspace.apply moveBeyond).2.model :=
  have hload : ∀ payload, moveBeyond ≠ .load payload := by simp [moveBeyond]
  have hnew : ∀ draw ∈ (start .counting).drawsOf (pairSession ++ [moveBeyond]), draw.IsNew := by
    decide +kernel
  ⟨hload, hnew, frame_apply hload hnew⟩

end Workspace

/-- Not every move only changes the places of the layers. -/
theorem not_move_perm : ¬ ∀ (ids : IdSource) (edits : List Edit) (source target : Int),
    (∀ draw ∈ (Workspace.start ids).drawsOf edits, draw.IsNew) →
      ((((Workspace.start ids).run edits).model.move source target).2.layers).Perm
        ((Workspace.start ids).run edits).model.layers := by
  intro h
  have hperm := h .counting Workspace.pairSession 0 (maxPosition + 1) (by decide +kernel)
  exact absurd hperm.length_eq (by decide +kernel)

end LayerStack
