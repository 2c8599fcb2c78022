import LayerStack.Proofs.Frames

/-! Steps that commute.  What an update sets is settled by the id and the kind of its layer alone,
and nothing but the configuration of that layer changes; the other operations look at ids and places
only.  So an update can be made before or after any step that is about another layer, another field
or no field at all. -/

namespace LayerStack

/-! ### Layers changed where they are -/

theorem insertAt_map {α β : Type} (f : α → β) (items : List α) (position : Int) (x : α) :
    insertAt (items.map f) position (f x) = (insertAt items position x).map f := by
  simp [insertAt]

theorem takeOut?_map {α β : Type} (f : α → β) (items : List α) (position : Int) :
    takeOut? (items.map f) position =
      (takeOut? items position).map fun out => (f out.1, out.2.map f) := by
  unfold takeOut?
  rw [List.length_map]
  cases place? items.length position with
  | none => rfl
  | some place => cases hx : items[place]? <;> simp [hx, List.eraseIdx_map]

namespace Model

/-- The model with every layer changed where it is. -/
def map (change : Layer → Layer) (model : Model) : Model := ⟨model.layers.map change⟩

variable {change : Layer → Layer} {model : Model}

theorem takeOut_map (position : Int) :
    (model.map change).takeOut position =
      (model.takeOut position).map fun out => (change out.1, out.2.map change) := by
  simp only [takeOut, map, takeOut?_map, List.isEmpty_map]
  split
  · cases takeOut? model.layers position <;> rfl
  · rfl

theorem insert_map (layer : Layer) (position : Option Int) :
    (model.map change).insert (change layer) position =
      (model.insert layer position).map (map change) := by
  cases position with
  | none => simp [insert, map, Except.map]
  | some position =>
    simp only [insert, map, insertAt_map]
    split <;> rfl

theorem move_map (source target : Int) :
    (model.map change).move source target =
      ((model.move source target).1, (model.move source target).2.map change) := by
  rw [move, move, takeOut_map]
  split
  · rfl
  cases model.takeOut source with
  | error fault => rfl
  | ok out =>
    obtain ⟨layer, rest⟩ := out
    simp only [Except.map, insert_map]
    cases rest.insert layer (some target) <;> rfl

/-- A new layer of a kind that there is, with an id that is nobody's. -/
theorem add_of_new {name : Value} {position : Option Int} {given : Option Text} {ids : IdSource}
    {kind : Kind} (hkind : Kind.ofValue? name = some kind) (hfind : model.find? given = none) :
    model.add name position given ids =
      ((model.insert (Layer.ofKind (ids.settle given).1 kind) position).map
        fun added => (Layer.ofKind (ids.settle given).1 kind, added), (ids.settle given).2) := by
  cases given <;> simp [add, hkind, hfind]

section

variable (hid : ∀ layer, (change layer).id = layer.id)
include hid

theorem find?_map (id : Option Text) :
    (model.map change).find? id = (model.find? id).map change := by
  simp only [find?, map, List.find?_map, Function.comp_def, hid]

theorem delete_map (id : Option Text) :
    (model.map change).delete id = ((model.delete id).1, (model.delete id).2.map change) := by
  simp [delete, map, List.filter_map, Function.comp_def, hid]

/-- A layer is added alike if the change leaves it as it is. -/
theorem add_map {name : Value} {position : Option Int} {given : Option Text} {ids : IdSource}
    (hnew : ∀ kind, Kind.ofValue? name = some kind → model.find? given = none →
      change (Layer.ofKind (ids.settle given).1 kind) = Layer.ofKind (ids.settle given).1 kind) :
    (model.map change).add name position given ids =
      ((model.add name position given ids).1.map fun out => (out.1, out.2.map change),
        (model.add name position given ids).2) := by
  have hfindMap : (model.map change).find? given = (model.find? given).map change :=
    find?_map hid given
  cases hfind : model.find? given with
  | some other =>
    cases given with
    | none => simp [find?_eq_none_iff.mpr] at hfind
    | some id => simp [add, hfind, hfindMap, Except.map]
  | none =>
    rw [hfind] at hfindMap
    cases hkind : Kind.ofValue? name with
    | none => cases given <;> simp [add, hfind, hfindMap, hkind, Except.map]
    | some kind =>
      have hlayer := hnew kind hkind hfind
      rw [add_of_new hkind hfind, add_of_new hkind hfindMap]
      conv_lhs => rw [← hlayer, insert_map, hlayer]
      cases model.insert _ position <;> rfl

/-- An update of the layers of an id that commutes with the change of each commutes with the change
of all. -/
theorem updateFirst_map {update : Layer → Except Fault Layer} {id : Option Text}
    {layers : List Layer}
    (hupdate : ∀ layer ∈ layers, some layer.id = id →
      update (change layer) = (update layer).map change) :
    updateFirst update id (layers.map change) =
      (updateFirst update id layers).map (List.map change) := by
  induction layers with
  | nil => rfl
  | cons layer rest ih =>
    obtain ⟨hlayer, hrest⟩ := List.forall_mem_cons.mp hupdate
    rw [List.map_cons, updateFirst, updateFirst, hid, ih hrest]
    split
    next hsame =>
      rw [hlayer hsame]
      cases update layer <;> rfl
    next => cases updateFirst update id rest <;> rfl

theorem update_map {id : Option Text} {key : Text} {value : Value}
    (hupdate : ∀ layer ∈ model.layers, some layer.id = id →
      (change layer).update key value = (layer.update key value).map change) :
    (model.map change).update id key value = (model.update id key value).map (map change) := by
  rw [update, update, map, updateFirst_map hid hupdate]
  cases updateFirst (fun layer => layer.update key value) id model.layers <;> rfl

end

end Model

/-! ### What an update sets -/

/-- What an update makes a layer with an id and a kind hold, and under which key. -/
def Kind.setting (kind : Kind) (id key : Text) (value : Value) : Except Fault (String × Value) :=
  match kind.field? key with
  | none => .error (.refused (.noSuchField kind key) (some id))
  | some field => (field.coerce value (some id)).map fun held => (field.key, held)

theorem Kind.setting_eq_ok {kind : Kind} {id key : Text} {value : Value} {entry : String × Value}
    (h : kind.setting id key value = .ok entry) :
    ∃ field ∈ kind.fields, Text.ofString field.key = key ∧
      entry = (field.key, field.range.clamp value) := by
  unfold setting at h
  split at h
  · simp at h
  next field hfield =>
    obtain ⟨hmem, hkey⟩ := Kind.field?_eq_some hfield
    obtain ⟨held, hheld, rfl⟩ := map_eq_ok.mp h
    obtain ⟨-, rfl⟩ := Field.coerce_eq_ok_iff.mp hheld
    exact ⟨field, hmem, hkey, rfl⟩

namespace Layer

/-- The layer with one more value set, if it has the id. -/
def setFor (id : Text) (key : String) (held : Value) (layer : Layer) : Layer :=
  if layer.id = id then { layer with config := layer.config.set key held } else layer

@[simp] theorem setFor_id (id : Text) (key : String) (held : Value) (layer : Layer) :
    (layer.setFor id key held).id = layer.id := by
  unfold setFor
  split <;> rfl

@[simp] theorem setFor_kind (id : Text) (key : String) (held : Value) (layer : Layer) :
    (layer.setFor id key held).kind = layer.kind := by
  unfold setFor
  split <;> rfl

theorem setFor_of_ne {id : Text} {layer : Layer} (h : layer.id ≠ id) (key : String) (held : Value) :
    layer.setFor id key held = layer := if_neg h

/-- Of two values that are set for a key, the later one counts. -/
theorem setFor_setFor (id : Text) (key : String) (held later : Value) (layer : Layer) :
    (layer.setFor id key held).setFor id key later = layer.setFor id key later := by
  by_cases h : layer.id = id
  · simp [setFor, h, Config.set, Entries.set_set]
  · simp [setFor_of_ne h]

/-- Values of two keys can be set in either order, if the layer has one of the keys. -/
theorem setFor_comm {layer : Layer} {id other : Text} {key otherKey : String}
    (held otherHeld : Value) (hmem : layer.id = id → key ∈ layer.config.keys)
    (hne : (other, otherKey) ≠ (id, key)) :
    (layer.setFor id key held).setFor other otherKey otherHeld =
      (layer.setFor other otherKey otherHeld).setFor id key held := by
  by_cases hid : layer.id = id
  · by_cases hother : layer.id = other
    · have hkey : key ≠ otherKey := by
        rintro rfl
        exact hne (by rw [← hid, ← hother])
      have hset := Entries.set_comm held otherHeld hkey (hmem hid)
      simp only [setFor, if_pos hid, if_pos hother, Config.set, hset]
    · rw [setFor_of_ne hother, setFor_of_ne (by simpa using hother)]
  · have hset : (layer.setFor other otherKey otherHeld).id ≠ id := by simpa using hid
    rw [setFor_of_ne hid, setFor_of_ne hset]

theorem update_eq_map (layer : Layer) (key : Text) (value : Value) :
    layer.update key value = (layer.kind.setting layer.id key value).map
      fun entry => layer.setFor layer.id entry.1 entry.2 := by
  unfold update Kind.setting
  cases layer.kind.field? key with
  | none => rfl
  | some field =>
    cases hheld : field.coerce value (some layer.id) <;> simp [hheld, Except.map, setFor]

/-- An update of another field commutes with the setting of a value. -/
theorem update_setFor {layer : Layer} {id : Text} {key : String} {otherKey : Text}
    (held value : Value) (hmem : layer.id = id → key ∈ layer.config.keys)
    (hne : (layer.id, otherKey) ≠ (id, Text.ofString key)) :
    (layer.setFor id key held).update otherKey value =
      (layer.update otherKey value).map (setFor id key held) := by
  rw [update_eq_map, update_eq_map, setFor_id, setFor_kind]
  cases hsetting : layer.kind.setting layer.id otherKey value with
  | error fault => rfl
  | ok entry =>
    obtain ⟨field, -, rfl, rfl⟩ := Kind.setting_eq_ok hsetting
    have hentry : (layer.id, field.key) ≠ (id, key) := by
      intro h
      obtain ⟨hid, hkey⟩ := Prod.mk.inj h
      exact hne (by rw [hid, hkey])
    exact congrArg Except.ok (setFor_comm held _ hmem hentry)

end Layer

namespace Model

variable {model : Model} {layer : Layer}

/-- The field that an update is about is set wherever the layer is in the model. -/
theorem update_of_mem (hnodup : model.ids.Nodup) (hlayer : layer ∈ model.layers) (key : Text)
    (value : Value) :
    model.update (some layer.id) key value = (layer.kind.setting layer.id key value).map
      fun entry => model.map (Layer.setFor layer.id entry.1 entry.2) := by
  obtain ⟨before, after, hmodel⟩ := List.append_of_mem hlayer
  obtain ⟨hbefore, hafter⟩ := List.forall_mem_append.mp (ne_of_split hnodup hmodel)
  rw [update, hmodel, updateFirst_of_split hbefore, Layer.update_eq_map]
  cases layer.kind.setting layer.id key value with
  | error fault => rfl
  | ok entry =>
    have hkept : ∀ layers : List Layer, (∀ other ∈ layers, other.id ≠ layer.id) →
        layers.map (Layer.setFor layer.id entry.1 entry.2) = layers := by
      intro layers hlayers
      have hsame : layers.map (Layer.setFor layer.id entry.1 entry.2) = layers.map id :=
        List.map_congr_left fun other hother => Layer.setFor_of_ne (hlayers other hother) _ _
      rw [hsame, List.map_id]
    simp [Except.map, map, hmodel, hkept before hbefore, hkept after hafter]

/-- A layer is found by its id. -/
theorem find?_of_mem (hnodup : model.ids.Nodup) (hlayer : layer ∈ model.layers) :
    model.find? (some layer.id) = some layer := by
  obtain ⟨before, after, hmodel⟩ := List.append_of_mem hlayer
  obtain ⟨hbefore, -⟩ := List.forall_mem_append.mp (ne_of_split hnodup hmodel)
  rw [find?, hmodel]
  exact List.find?_eq_some_iff_append.mpr ⟨by simp, before, after, rfl, by simpa using hbefore⟩

theorem map_setFor_setFor (model : Model) (id : Text) (key : String) (held later : Value) :
    (model.map (Layer.setFor id key held)).map (Layer.setFor id key later) =
      model.map (Layer.setFor id key later) := by
  simp only [map, List.map_map, mk.injEq]
  exact List.map_congr_left fun layer _ => Layer.setFor_setFor id key held later layer

theorem ids_map_setFor (model : Model) (id : Text) (key : String) (held : Value) :
    (model.map (Layer.setFor id key held)).ids = model.ids := by
  simp [map, ids]

theorem mem_of_add {name : Value} {position : Option Int} {given : Option Text}
    {ids after : IdSource} {new : Layer} {added : Model}
    (h : model.add name position given ids = (.ok (new, added), after))
    (hlayer : layer ∈ model.layers) : layer ∈ added.layers := by
  obtain ⟨-, -, -, -, hinsert, -⟩ := add_eq_ok h
  exact (insert_perm hinsert).mem_iff.mpr (List.mem_cons_of_mem _ hlayer)

/-- No update takes a layer out or gives it another id or kind. -/
theorem exists_mem_of_update {updated : Model} {id : Option Text} {key : Text} {value : Value}
    (h : model.update id key value = .ok updated) (hlayer : layer ∈ model.layers) :
    ∃ kept ∈ updated.layers, kept.id = layer.id ∧ kept.kind = layer.kind := by
  obtain ⟨before, first, after, changed, hmodel, -, -, hchanged, hupdated⟩ := update_eq_ok h
  obtain ⟨field, -, -, held, -, rfl⟩ := Layer.update_eq_ok hchanged
  rw [hmodel, List.mem_append, List.mem_cons] at hlayer
  rw [hupdated]
  rcases hlayer with hbefore | rfl | hafter
  · exact ⟨layer, by simp [hbefore], rfl, rfl⟩
  · exact ⟨{ layer with config := layer.config.set field.key held }, by simp, rfl, rfl⟩
  · exact ⟨layer, by simp [hafter], rfl, rfl⟩

end Model

/-! ### Steps that are apart -/

/-- A step that is not about a field of the layer with an id: it does not delete that layer, sets
another field or one of another layer, and is no load. -/
inductive Edit.Apart (id key : Text) : Edit → Prop
  | add {name : Value} {position : Option Int} {given : Option Text} :
      Apart id key (.add name position given)
  | delete {other : Option Text} (h : other ≠ some id) : Apart id key (.delete other)
  | move {source target : Int} : Apart id key (.move source target)
  | update {other : Option Text} {otherKey : Text} {value : Value}
      (h : (other, otherKey) ≠ (some id, key)) : Apart id key (.update other otherKey value)

namespace Workspace

/-- The workspace with every layer of its model changed where it is. -/
def map (change : Layer → Layer) (workspace : Workspace) : Workspace :=
  { workspace with model := workspace.model.map change }

variable {workspace : Workspace} {layer : Layer} {key : Text} {edit : Edit}

/-- A step that is apart from a field leaves the layer in the model, unless it fails. -/
theorem exists_kept {answer : Answer} (hlayer : layer ∈ workspace.model.layers)
    (hapart : edit.Apart layer.id key) (hok : (workspace.apply edit).1 = .ok answer) :
    ∃ kept ∈ (workspace.apply edit).2.model.layers,
      kept.id = layer.id ∧ kept.kind = layer.kind := by
  cases hapart with
  | @add name position given =>
    cases hadd : workspace.model.add name position given workspace.ids with
    | mk result ids =>
      cases result with
      | error fault => simp [apply, hadd] at hok
      | ok out =>
        obtain ⟨new, added⟩ := out
        exact ⟨layer, by simpa [apply, hadd] using Model.mem_of_add hadd hlayer, rfl, rfl⟩
  | @delete other hne =>
    refine ⟨layer, ?_, rfl, rfl⟩
    simp [apply, Model.delete, hlayer, Ne.symm hne]
  | @move source target =>
    cases hmove : workspace.model.move source target with
    | mk result after =>
      cases result with
      | error fault => simp [apply, hmove, Except.map] at hok
      | ok _ =>
        refine ⟨layer, ?_, rfl, rfl⟩
        simpa [apply, hmove] using (Model.move_perm_of_ok hmove).mem_iff.mpr hlayer
  | @update other otherKey value hne =>
    cases hupdate : workspace.model.update other otherKey value with
    | error fault => simp [apply, hupdate] at hok
    | ok updated => simpa [apply, hupdate] using Model.exists_mem_of_update hupdate hlayer

/-- A step that is apart from a field answers the same after the field is set, and changes the
same. -/
theorem apply_map_setFor {field : String} (held : Value) (hnodup : workspace.model.ids.Nodup)
    (hconfigured : workspace.model.Configured) (hlayer : layer ∈ workspace.model.layers)
    (hfield : field ∈ layer.kind.fields.map Field.key)
    (hapart : edit.Apart layer.id (Text.ofString field))
    (hnew : ∀ draw ∈ workspace.draws edit, draw.IsNew) :
    (workspace.map (Layer.setFor layer.id field held)).apply edit =
      ((workspace.apply edit).1,
        (workspace.apply edit).2.map (Layer.setFor layer.id field held)) := by
  have hid := Layer.setFor_id layer.id field held
  cases hapart with
  | @add name position given =>
    have hadded : ∀ kind, Kind.ofValue? name = some kind → workspace.model.find? given = none →
        (Layer.ofKind (workspace.ids.settle given).1 kind).setFor layer.id field held =
          Layer.ofKind (workspace.ids.settle given).1 kind := by
      intro kind hkind hfind
      rw [draws, Model.add_of_new hkind hfind] at hnew
      -- The id that is settled is nobody's, so it is not that of the layer.
      have hother : (workspace.ids.settle given).1 ≠ layer.id := by
        intro hsame
        exact IdSource.settle_not_mem hnew (Model.find?_eq_none_iff.mp hfind)
          (hsame ▸ List.mem_map_of_mem hlayer)
      exact Layer.setFor_of_ne hother field held
    simp only [apply, map, Model.add_map hid hadded]
    cases workspace.model.add name position given workspace.ids with
    | mk result ids => cases result <;> rfl
  | delete _ => simp [apply, map, Model.delete_map hid]
  | move => simp [apply, map, Model.move_map]
  | @update other otherKey value hne =>
    have hupdate : ∀ found ∈ workspace.model.layers, some found.id = other →
        (found.setFor layer.id field held).update otherKey value =
          (found.update otherKey value).map (Layer.setFor layer.id field held) := by
      rintro found hfound rfl
      refine Layer.update_setFor held value (fun hsame => ?_) (by simpa using hne)
      -- Ids are distinct, so that it is the layer itself and has the field.
      obtain rfl : found = layer := List.inj_on_of_nodup_map hnodup hfound hlayer hsame
      exact (hconfigured found hfound).keys ▸ hfield
    simp only [apply, map, Model.update_map hid hupdate]
    cases workspace.model.update other otherKey value <;> rfl

theorem apply_update (hnodup : workspace.model.ids.Nodup) (hlayer : layer ∈ workspace.model.layers)
    (key : Text) (value : Value) :
    workspace.apply (.update (some layer.id) key value) =
      match layer.kind.setting layer.id key value with
      | .error fault => (.error fault, workspace)
      | .ok entry => (.ok .silent, workspace.map (Layer.setFor layer.id entry.1 entry.2)) := by
  rw [apply, Model.update_of_mem hnodup hlayer]
  cases layer.kind.setting layer.id key value <;> rfl

/-- An update can be made before or after a step that is apart from it. -/
theorem apply_comm_update (value : Value) (hnodup : workspace.model.ids.Nodup)
    (hconfigured : workspace.model.Configured) (hlayer : layer ∈ workspace.model.layers)
    (hapart : edit.Apart layer.id key) (hnew : ∀ draw ∈ workspace.draws edit, draw.IsNew) :
    ((workspace.apply (.update (some layer.id) key value)).2.apply edit).1 =
        (workspace.apply edit).1 ∧
      ∀ answer, (workspace.apply edit).1 = .ok answer →
        (workspace.apply edit).2.apply (.update (some layer.id) key value) =
          ((workspace.apply (.update (some layer.id) key value)).1,
            ((workspace.apply (.update (some layer.id) key value)).2.apply edit).2) := by
  have hmap : ∀ entry, layer.kind.setting layer.id key value = .ok entry →
      (workspace.map (Layer.setFor layer.id entry.1 entry.2)).apply edit =
        ((workspace.apply edit).1,
          (workspace.apply edit).2.map (Layer.setFor layer.id entry.1 entry.2)) := by
    intro entry hsetting
    obtain ⟨field, hfield, rfl, rfl⟩ := Kind.setting_eq_ok hsetting
    exact apply_map_setFor _ hnodup hconfigured hlayer (List.mem_map_of_mem hfield) hapart hnew
  rw [apply_update hnodup hlayer]
  refine ⟨?_, fun answer hok => ?_⟩
  · cases hsetting : layer.kind.setting layer.id key value with
    | error fault => rfl
    | ok entry => simp only [hmap entry hsetting]
  · -- After the step, the update is still about a layer of this id and kind.
    obtain ⟨kept, hkept, hid, hkind⟩ := exists_kept hlayer hapart hok
    have hlater := apply_update (nodup_ids_apply hnodup hnew) hkept key value
    rw [hid, hkind] at hlater
    rw [hlater]
    cases hsetting : layer.kind.setting layer.id key value with
    | error fault => rfl
    | ok entry => simp only [hmap entry hsetting]

/-- Of two updates of one field the later one counts. -/
theorem apply_update_update (value later : Value) (hnodup : workspace.model.ids.Nodup)
    (hlayer : layer ∈ workspace.model.layers) :
    ((workspace.apply (.update (some layer.id) key value)).2.apply
        (.update (some layer.id) key later)).1 =
        (workspace.apply (.update (some layer.id) key later)).1 ∧
      ∀ answer, (workspace.apply (.update (some layer.id) key later)).1 = .ok answer →
        ((workspace.apply (.update (some layer.id) key value)).2.apply
            (.update (some layer.id) key later)).2 =
          (workspace.apply (.update (some layer.id) key later)).2 := by
  rw [apply_update hnodup hlayer key value]
  cases hvalue : layer.kind.setting layer.id key value with
  | error fault => exact ⟨rfl, fun _ _ => rfl⟩
  | ok entry =>
    have hset : layer.setFor layer.id entry.1 entry.2 ∈
        (workspace.map (Layer.setFor layer.id entry.1 entry.2)).model.layers :=
      List.mem_map_of_mem hlayer
    have hnodupSet : (workspace.map (Layer.setFor layer.id entry.1 entry.2)).model.ids.Nodup :=
      (Model.ids_map_setFor ..).symm ▸ hnodup
    have hlater := apply_update hnodupSet hset key later
    rw [Layer.setFor_id, Layer.setFor_kind] at hlater
    simp only [hlater, apply_update hnodup hlayer]
    cases hlast : layer.kind.setting layer.id key later with
    | error fault => exact ⟨rfl, fun _ h => by simp at h⟩
    | ok last =>
      obtain ⟨first, -, hfirst, rfl⟩ := Kind.setting_eq_ok hvalue
      obtain ⟨second, -, hsecond, rfl⟩ := Kind.setting_eq_ok hlast
      have hkey : second.key = first.key := Text.ofString_inj.mp (hsecond.trans hfirst.symm)
      refine ⟨rfl, fun _ _ => ?_⟩
      simp only [hkey, map, Model.map_setFor_setFor]

/-- After an update that is answered the layer is found with the field set to the value, clamped,
and all else as it was. -/
theorem find?_apply_update {answer : Answer} (value : Value) (hnodup : workspace.model.ids.Nodup)
    (hconfigured : workspace.model.Configured) (hlayer : layer ∈ workspace.model.layers)
    (hok : (workspace.apply (.update (some layer.id) key value)).1 = .ok answer) :
    ∃ field ∈ layer.kind.fields, Text.ofString field.key = key ∧ ∃ changed,
      (workspace.apply (.update (some layer.id) key value)).2.model.find? (some layer.id) =
        some changed ∧ layer.SetTo field (field.range.clamp value) changed := by
  rw [apply_update hnodup hlayer] at hok ⊢
  cases hsetting : layer.kind.setting layer.id key value with
  | error fault => simp [hsetting] at hok
  | ok entry =>
    obtain ⟨field, hfield, hkey, rfl⟩ := Kind.setting_eq_ok hsetting
    refine ⟨field, hfield, hkey, _, ?_, Layer.setTo_update (hconfigured layer hlayer) hfield _⟩
    have hid := Layer.setFor_id layer.id field.key (field.range.clamp value)
    simp only [map, Model.find?_map hid, Model.find?_of_mem hnodup hlayer, Option.map_some,
      Layer.setFor, if_true]

/-- In a session in which every id that is drawn is nobody's at that moment, an update of a layer
can be made before or after any step that is apart from it: what the two answer and the workspace
after them are the same.  Of two updates of one field only the later one counts: the layer then
holds the later value in that field, clamped, and everything else that it held before. -/
theorem update_comm {ids : IdSource} {done : List Edit} {layer : Layer}
    (hlayer : layer ∈ ((start ids).run done).model.layers)
    (hnew : ∀ draw ∈ (start ids).drawsOf done, draw.IsNew) (key : Text) (value : Value) :
    let workspace := (start ids).run done
    let update := Edit.update (some layer.id) key value
    (∀ edit, edit.Apart layer.id key → (∀ draw ∈ workspace.draws edit, draw.IsNew) →
      ((workspace.apply update).2.apply edit).1 = (workspace.apply edit).1 ∧
        ∀ answer, (workspace.apply edit).1 = .ok answer →
          ((workspace.apply edit).2.apply update).1 = (workspace.apply update).1 ∧
            workspace.run [edit, update] = workspace.run [update, edit]) ∧
    ∀ later,
      ((workspace.apply update).2.apply (.update (some layer.id) key later)).1 =
          (workspace.apply (.update (some layer.id) key later)).1 ∧
        ∀ answer, (workspace.apply (.update (some layer.id) key later)).1 = .ok answer →
          workspace.run [update, .update (some layer.id) key later] =
              workspace.run [.update (some layer.id) key later] ∧
            ∃ field ∈ layer.kind.fields, Text.ofString field.key = key ∧ ∃ changed,
              (workspace.run [update, .update (some layer.id) key later]).model.find?
                  (some layer.id) = some changed ∧
                layer.SetTo field (field.range.clamp later) changed := by
  have hstart : (start ids).model.ids.Nodup := by simp [start, Model.ids, Model.empty]
  have hnodup := nodup_ids_run hstart hnew
  have hconfigured : ((start ids).run done).model.Configured :=
    run_configured Model.configured_empty done
  refine ⟨fun edit hapart hdraws => ?_, fun later => ?_⟩
  · obtain ⟨hfirst, hrest⟩ := apply_comm_update value hnodup hconfigured hlayer hapart hdraws
    refine ⟨hfirst, fun answer hok => ?_⟩
    have hboth := hrest answer hok
    have hanswer := congrArg Prod.fst hboth
    have hleft := congrArg Prod.snd hboth
    exact ⟨hanswer, hleft⟩
  · obtain ⟨hanswer, hlater⟩ := apply_update_update value later hnodup hlayer
    refine ⟨hanswer, fun answer hok => ?_⟩
    have hrun : ((start ids).run done).run [.update (some layer.id) key value,
        .update (some layer.id) key later] =
          ((start ids).run done).run [.update (some layer.id) key later] := hlater answer hok
    rw [hrun]
    exact ⟨rfl, find?_apply_update later hnodup hconfigured hlayer hok⟩

theorem update_comm_pairSession :
    let workspace := (start .counting).run pairSession
    let update := Edit.update (some "b") "use_bias" (.bool false)
    let later := Edit.update (some "b") "use_bias" (.bool true)
    Layer.ofKind "b" .linear ∈ workspace.model.layers ∧
      (∀ draw ∈ (start .counting).drawsOf pairSession, draw.IsNew) ∧
      (workspace.apply (.move 0 1)).1 = .ok .silent ∧ (workspace.apply later).1 = .ok .silent ∧
      workspace.run [.move 0 1, update] = workspace.run [update, .move 0 1] ∧
      workspace.run [update, later] = workspace.run [later] ∧
      ∃ field ∈ (Kind.linear).fields, Text.ofString field.key = "use_bias" ∧ ∃ changed,
        (workspace.run [update, later]).model.find? (some "b") = some changed ∧
          (Layer.ofKind "b" .linear).SetTo field (field.range.clamp (.bool true)) changed := by
  intro workspace update later
  have hlayer : Layer.ofKind "b" .linear ∈ workspace.model.layers := by decide +kernel
  have hnew : ∀ draw ∈ (start .counting).drawsOf pairSession, draw.IsNew := by decide +kernel
  have hmove : (workspace.apply (.move 0 1)).1 = .ok .silent := rfl
  have hlater : (workspace.apply later).1 = .ok .silent := rfl
  obtain ⟨hapart, hsame⟩ := update_comm hlayer hnew "use_bias" (.bool false)
  exact ⟨hlayer, hnew, hmove, hlater, ((hapart (.move 0 1) .move (by simp [draws])).2 _ hmove).2,
    (hsame (.bool true)).2 _ hlater⟩

end Workspace

end LayerStack
