import LayerStack.Proofs.Clamping
import LayerStack.Proofs.Session
import LayerStack.Proofs.FieldValues
import LayerStack.Proofs.Totality

/-! The payloads that can be read as a model, and what is read from them.  Each entry says by itself
what its layer is; of several entries, all that matters is that the ids they give are distinct.
Members that are no fields and the order of members do not matter. -/

namespace LayerStack

namespace Entries

variable {κ α : Type} [DecidableEq κ]

/-- The value of the last entry with the given name. -/
def last? : Entries κ α → κ → Option α
  | [], _ => none
  | (k, v) :: rest, key => (last? rest key).or (if k = key then some v else none)

theorem mem_of_last? {entries : Entries κ α} {key : κ} {value : α}
    (h : entries.last? key = some value) : (key, value) ∈ entries := by
  induction entries with
  | nil => simp [last?] at h
  | cons entry rest ih =>
    obtain ⟨k, v⟩ := entry
    rcases Option.or_eq_some_iff.mp h with hrest | ⟨-, hfirst⟩
    · exact List.mem_cons_of_mem _ (ih hrest)
    · obtain ⟨rfl, rfl⟩ : k = key ∧ v = value := by simpa using hfirst
      exact List.mem_cons_self

theorem last?_of_mem {entries : Entries κ α} (hnodup : entries.keys.Nodup) {key : κ} {value : α}
    (h : (key, value) ∈ entries) : entries.last? key = some value := by
  induction entries with
  | nil => simp at h
  | cons entry rest ih =>
    obtain ⟨k, v⟩ := entry
    simp only [keys, List.map_cons, List.nodup_cons] at hnodup
    rcases List.mem_cons.mp h with hfirst | hrest
    · obtain ⟨rfl, rfl⟩ : key = k ∧ value = v := by simpa using hfirst
      have hnone : last? rest key = none := by
        refine Option.eq_none_iff_forall_ne_some.mpr fun other hother => ?_
        exact hnodup.1 (List.mem_map_of_mem (f := (·.1)) (mem_of_last? hother))
      simp [last?, hnone]
    · simp [last?, ih hnodup.2 hrest]

theorem last?_filter {entries : Entries κ α} {keep : κ × α → Bool} {key : κ}
    (h : ∀ value, keep (key, value) = true) :
    last? (entries.filter keep) key = last? entries key := by
  induction entries with
  | nil => rfl
  | cons entry rest ih =>
    obtain ⟨k, v⟩ := entry
    by_cases hkeep : keep (k, v) = true
    · rw [List.filter_cons_of_pos hkeep, last?, last?, ih]
    · have hk : k ≠ key := by
        rintro rfl
        exact hkeep (h v)
      rw [List.filter_cons_of_neg hkeep, last?, ih, if_neg hk, Option.or_none]

/-- The order of entries with distinct names does not matter. -/
theorem last?_perm {entries others : Entries κ α} (hperm : entries.Perm others)
    (hnodup : entries.keys.Nodup) (key : κ) : entries.last? key = others.last? key := by
  have hothers : others.keys.Nodup := (hperm.map Prod.fst).nodup_iff.mp hnodup
  refine Option.ext fun value => ⟨fun h => ?_, fun h => ?_⟩
  · exact last?_of_mem hothers (hperm.mem_iff.mp (mem_of_last? h))
  · exact last?_of_mem hnodup (hperm.mem_iff.mpr (mem_of_last? h))

end Entries

/-! ### What entries say -/

/-- What a field holds after members were set over a value: the last one that is given, clamped. -/
def Field.setBy (field : Field) (members : Members) (value : Value) : Value :=
  ((members.last? (Text.ofString field.key)).map field.range.clamp).getD value

/-- What an entry says of its layer: its id, if it gives one that is not empty, its kind, and the
members of its configuration. -/
structure Description where
  id : Option Text
  kind : Kind
  config : Members

/-- The layer that is described, with an id.  A field without a given value has its default. -/
def Description.layer (description : Description) (id : Text) : Layer :=
  ⟨id, description.kind, ⟨description.kind.fields.map fun field =>
    (field.key, field.setBy description.config field.initial)⟩⟩

namespace Payload

/-- The members of a configuration: those of an object, and none of what does not count as given. -/
inductive Configures : Value → Members → Prop
  | object (members : Members) : Configures (.obj members) members
  | absent {config : Value} (h : config.isGiven = false) : Configures config []

/-- Every member that is named like a field of the kind has a value that the field takes. -/
def Fits (kind : Kind) (members : Members) : Prop :=
  ∀ member ∈ members, ∀ field ∈ kind.fields, Text.ofString field.key = member.1 →
    field.range.Takes member.2

/-- The configuration of an entry: what it gives under the first of two names, else under the
second. -/
def configuration (members : Members) : Value :=
  ((members.get? "config").or (members.get? "params")).getD .null

/-- What an entry says.  It is an object, its id can be written, its type is the name of a kind, and
the members of its configuration fit that kind. -/
inductive Tells : Value → Description → Prop
  | object {members config : Members} {id : Option Text} {kind : Kind}
      (hid : givenId members = .ok id) (htype : members.get? "type" = some (.str kind.name))
      (hconfig : Configures (configuration members) config) (hfits : Fits kind config) :
      Tells (.obj members) ⟨id.filter fun id => !id.isEmpty, kind, config⟩

/-- The grammar of payloads: a list of entries that all say something, with distinct ids. -/
inductive Describes : Value → List Description → Prop
  | list {entries : List Value} {descriptions : List Description}
      (hentries : List.Forall₂ Tells entries descriptions)
      (hids : (descriptions.filterMap Description.id).Nodup) :
      Describes (.list entries) descriptions

/-- The layers that are described, with ids drawn in their order for those without one. -/
def layers : List Description → IdSource → List Layer
  | [], _ => []
  | description :: rest, ids =>
    match description.id with
    | some id => description.layer id :: layers rest ids
    | none => description.layer ids.draw.1 :: layers rest ids.draw.2

def entriesOf : Value → List Value
  | .list entries => entries
  | _ => []

/-- The id that an entry gives, empty or not. -/
def entryId : Value → Option Text
  | .obj members => (givenId members).toOption.join
  | _ => none

/-- Whether an entry is an object without an id, or with an empty one. -/
def isUnnamed : Value → Bool
  | .obj members => (givenId members).toOption.any fun id => id.all Text.isEmpty
  | _ => false

/-- The members of a configuration that are named like fields of the kind. -/
def known (kind : Kind) (config : Members) : Members :=
  config.filter fun member => (kind.field? member.1).isSome

/-- Entries that differ only in members that are no fields, or in the order of members. -/
inductive Alike : Value → Value → Prop
  | refl (entry : Value) : Alike entry entry
  | object {members others config otherConfig : Members} {kind : Kind}
      (htype : members.get? "type" = some (.str kind.name))
      (hother : others.get? "type" = some (.str kind.name))
      (hid : givenId members = givenId others)
      (hconfig : Configures (configuration members) config)
      (hotherConfig : Configures (configuration others) otherConfig)
      (hdistinct : (known kind config).keys.Nodup)
      (hknown : (known kind config).Perm (known kind otherConfig)) :
      Alike (.obj members) (.obj others)

end Payload

namespace IdSource

/-- The next ids of a source. -/
def upcoming (ids : IdSource) (count : Nat) : List Text :=
  (List.range count).map fun i => ids.idAt (ids.next + i)

/-- The source after a number of ids was drawn. -/
def advance (ids : IdSource) (count : Nat) : IdSource := { ids with next := ids.next + count }

/-- The ids that would be drawn for entries are distinct, and no entry gives one of them. -/
structure NewTo (ids : IdSource) (entries : List Value) : Prop where
  distinct : (ids.upcoming (entries.countP Payload.isUnnamed)).Nodup
  notGiven : ∀ id ∈ ids.upcoming (entries.countP Payload.isUnnamed),
    id ∉ entries.filterMap Payload.entryId

theorem upcoming_succ (ids : IdSource) (count : Nat) :
    ids.upcoming (count + 1) = ids.draw.1 :: ids.draw.2.upcoming count := by
  have hshift : ∀ i, ids.idAt (ids.next + (i + 1)) = ids.idAt (ids.next + 1 + i) :=
    fun i => congrArg ids.idAt (by omega)
  rw [upcoming, List.range_succ_eq_map, List.map_cons, List.map_map]
  exact congrArg (ids.draw.1 :: ·) (List.map_congr_left fun i _ => hshift i)

/-- An empty id is settled like none. -/
theorem settle_filter (ids : IdSource) (given : Option Text) :
    ids.settle (given.filter fun id => !id.isEmpty) = ids.settle given := by
  cases given with
  | none => rfl
  | some id => cases hempty : id.isEmpty <;> simp [settle, Option.filter, hempty]

end IdSource

/-! ### Members -/

section Members

variable {field : Field} {members rest : Members} {key : Text} {value held : Value}

@[simp] theorem Field.setBy_nil : field.setBy [] held = held := rfl

theorem Field.setBy_cons_self :
    field.setBy ((Text.ofString field.key, value) :: rest) held =
      field.setBy rest (field.range.clamp value) := by
  cases hlast : Entries.last? rest (Text.ofString field.key) <;>
    simp [setBy, Entries.last?, hlast]

theorem Field.setBy_cons_of_ne (h : key ≠ Text.ofString field.key) :
    field.setBy ((key, value) :: rest) held = field.setBy rest held := by
  simp [setBy, Entries.last?, h]

/-- A layer with members set over what its fields hold. -/
def Layer.setBy (layer : Layer) (members : Members) : Layer :=
  { layer with config := ⟨layer.kind.fields.map fun field =>
      (field.key, field.setBy members ((layer.config.get? field.key).getD .null))⟩ }

theorem Layer.Configured.setBy_nil {layer : Layer} (h : layer.Configured) :
    layer.setBy [] = layer := by
  have hkeys : layer.config.entries.keys = layer.kind.fields.map Field.key := h.keys
  have hentries := Entries.eq_map_keys (hkeys ▸ layer.kind.nodup_keys)
  rw [hkeys, List.map_map] at hentries
  obtain ⟨id, kind, ⟨entries⟩⟩ := layer
  exact congrArg (fun entries => Layer.mk id kind ⟨entries⟩) hentries.symm

theorem Layer.setBy_cons_of_field {layer : Layer} (hfield : field ∈ layer.kind.fields) :
    layer.setBy ((Text.ofString field.key, value) :: rest) =
      Layer.setBy { layer with config := layer.config.set field.key (field.range.clamp value) }
        rest := by
  have hheld : ∀ other ∈ layer.kind.fields,
      other.setBy ((Text.ofString field.key, value) :: rest)
          ((layer.config.get? other.key).getD .null) =
        other.setBy rest
          (((layer.config.set field.key (field.range.clamp value)).get? other.key).getD .null) := by
    intro other hother
    by_cases hkey : field.key = other.key
    · rw [← Kind.eq_of_key_eq hfield hother hkey, Field.setBy_cons_self, Config.get?, Config.set,
        Entries.get?_set_self, Option.getD_some]
    · have hne : Text.ofString field.key ≠ Text.ofString other.key := by simpa using hkey
      rw [Field.setBy_cons_of_ne hne, Config.get?, Config.get?, Config.set,
        Entries.get?_set_of_ne _ _ hkey]
  simp only [Layer.setBy, Layer.mk.injEq, true_and, Config.mk.injEq]
  exact List.map_congr_left fun other hother => by rw [hheld other hother]

theorem Layer.setBy_cons_of_none {layer : Layer} (h : layer.kind.field? key = none) :
    layer.setBy ((key, value) :: rest) = layer.setBy rest := by
  simp only [Layer.setBy, Layer.mk.injEq, true_and, Config.mk.injEq]
  refine List.map_congr_left fun field hfield => ?_
  have hne : key ≠ Text.ofString field.key := by
    rintro rfl
    simp [Kind.field?_of_mem hfield] at h
  rw [Field.setBy_cons_of_ne hne]

namespace Payload

theorem fits_cons_of_field {kind : Kind} (hfield : field ∈ kind.fields) :
    Fits kind ((Text.ofString field.key, value) :: rest) ↔
      field.range.Takes value ∧ Fits kind rest := by
  rw [Fits, List.forall_mem_cons]
  refine and_congr_left' ⟨fun h => h field hfield rfl, fun h other hother hkey => ?_⟩
  rwa [Kind.eq_of_key_eq hother hfield (Text.ofString_inj.mp hkey)]

theorem fits_cons_of_none {kind : Kind} (h : kind.field? key = none) :
    Fits kind ((key, value) :: rest) ↔ Fits kind rest := by
  rw [Fits, List.forall_mem_cons]
  refine and_iff_right fun field hfield (hkey : Text.ofString field.key = key) => ?_
  rw [← hkey, Kind.field?_of_mem hfield] at h
  simp at h

/-- Members can be set if they fit, and then the last one that is given for a field counts. -/
theorem updateAll_eq_ok_iff {layer updated : Layer} (h : layer.Configured) :
    updateAll layer members = .ok updated ↔
      Fits layer.kind members ∧ updated = layer.setBy members := by
  induction members generalizing layer with
  | nil => simp [updateAll, Fits, h.setBy_nil, eq_comm]
  | cons member rest ih =>
    obtain ⟨key, value⟩ := member
    rw [updateAll]
    cases hfield : layer.kind.field? key with
    | none => simp [fits_cons_of_none hfield, Layer.setBy_cons_of_none hfield, ih h]
    | some field =>
      obtain ⟨hmem, rfl⟩ := Kind.field?_eq_some hfield
      rw [fits_cons_of_field hmem, Layer.setBy_cons_of_field hmem]
      cases hupdate : layer.update (Text.ofString field.key) value with
      | error fault =>
        have hnot : ¬ field.range.Takes value := by
          intro htakes
          simp [(Layer.update_field_eq_ok_iff hmem).mpr ⟨htakes, rfl⟩] at hupdate
        simp [hnot]
      | ok next =>
        obtain ⟨htakes, rfl⟩ := (Layer.update_field_eq_ok_iff hmem).mp hupdate
        simpa [htakes] using ih (h.update hupdate)

end Payload

end Members

theorem Kind.ofValue?_eq_some_iff {value : Value} {kind : Kind} :
    ofValue? value = some kind ↔ value = .str kind.name :=
  Value.named?_eq_some_iff (find?_name_eq_some_iff ofName?_name)

namespace Payload

/-! ### Entries -/

theorem configMembers_eq_ok_iff {position : Nat} {id : Text} {config : Value} {members : Members} :
    configMembers position id config = .ok members ↔ Configures config members := by
  constructor
  · intro h
    unfold configMembers at h
    split at h
    · split at h <;> simp at h
      subst h
      exact .object _
    next hgiven =>
      obtain rfl : [] = members := by simpa using h
      exact .absent (Bool.eq_false_iff.mpr hgiven)
  · intro h
    cases h with
    | object => cases members <;> simp [configMembers, Value.isGiven]
    | absent hgiven => simp [configMembers, hgiven]

theorem givenConfig_eq (members : Members) : givenConfig members = configuration members := by
  unfold givenConfig configuration
  cases members.get? "config" <;> rfl

theorem readHead_eq_ok_iff {position : Nat} {entry : Value} {head : Head} :
    readHead position entry = .ok head ↔ ∃ (members : Members) (id : Option Text) (kind : Kind),
      entry = .obj members ∧ givenId members = .ok id ∧
        members.get? "type" = some (.str kind.name) ∧ head = ⟨members, id, kind⟩ := by
  constructor
  · intro h
    unfold readHead at h
    split at h
    next members =>
      split at h <;> simp at h
      next id kind hid hkind =>
        refine ⟨members, id, kind, rfl, hid, ?_, h.symm⟩
        have htype := Kind.ofValue?_eq_some_iff.mp hkind
        cases hget : Entries.get? members "type" with
        | none => simp [givenType, hget] at htype
        | some type => simpa [givenType, hget] using htype
    · simp at h
  · rintro ⟨members, id, kind, rfl, hid, htype, rfl⟩
    simp [readHead, hid, givenType, htype, Kind.ofValue?_name]

theorem readLayer_eq_ok_iff {position : Nat} {head : Head} {id : Text} {layer : Layer} :
    readLayer position head id = .ok layer ↔
      ∃ config, Configures (configuration head.members) config ∧ Fits head.kind config ∧
        layer = Description.layer ⟨head.id, head.kind, config⟩ id := by
  have hdefaults := Layer.configured_ofKind id head.kind
  have hset : ∀ config, (Layer.ofKind id head.kind).setBy config =
      Description.layer ⟨head.id, head.kind, config⟩ id := by
    intro config
    simp only [Layer.setBy, Description.layer, Layer.ofKind, Layer.mk.injEq, true_and,
      Config.mk.injEq]
    refine List.map_congr_left fun field hfield => ?_
    have hnodup : head.kind.defaultConfig.keys.Nodup :=
      head.kind.keys_defaultConfig ▸ head.kind.nodup_keys
    have hget : head.kind.defaultConfig.get? field.key = some field.initial :=
      Entries.get?_of_mem hnodup
        (List.mem_map_of_mem (f := fun field => (field.key, field.initial)) hfield)
    rw [hget, Option.getD_some]
  rw [readLayer, givenConfig_eq]
  cases hconfig : configMembers position id (configuration head.members) with
  | error fault =>
    refine iff_of_false (by simp) ?_
    rintro ⟨config, h, -⟩
    simp [configMembers_eq_ok_iff.mpr h] at hconfig
  | ok config =>
    have hread : updateAll (Layer.ofKind id head.kind) config = .ok layer ↔
        Fits head.kind config ∧ layer = (Layer.ofKind id head.kind).setBy config :=
      updateAll_eq_ok_iff hdefaults
    rw [hset] at hread
    refine hread.trans ⟨fun h => ⟨config, configMembers_eq_ok_iff.mp hconfig, h⟩, ?_⟩
    rintro ⟨other, hother, h⟩
    obtain rfl : config = other := by
      have hread : configMembers position id (configuration head.members) = .ok other :=
        configMembers_eq_ok_iff.mpr hother
      simpa [hconfig] using hread
    exact h

theorem Tells.id_cases {entry : Value} {description : Description} (h : Tells entry description) :
    (∃ id, description.id = some id ∧ id.isEmpty = false ∧ entryId entry = some id ∧
        isUnnamed entry = false) ∨
      (description.id = none ∧ isUnnamed entry = true) := by
  cases h with
  | @object members config id kind hid htype hconfig hfits =>
    cases id with
    | none => simp [isUnnamed, hid, Except.toOption]
    | some id =>
      cases hempty : id.isEmpty <;>
        simp [entryId, isUnnamed, hid, hempty, Option.filter, Except.toOption]

/-- An entry is read as the layer that it describes, if nobody has the id that it gives. -/
theorem readEntry_eq_ok_iff {model : Model} {position : Nat} {entry : Value} {ids after : IdSource}
    {layer : Layer} (hempty : ∀ id ∈ model.ids, id.isEmpty = true → entryId entry ≠ some id) :
    readEntry model position entry ids = (.ok layer, after) ↔
      ∃ description, Tells entry description ∧
        (∀ id, description.id = some id → id ∉ model.ids) ∧
        layer = description.layer (ids.settle description.id).1 ∧
        after = (ids.settle description.id).2 := by
  constructor
  · intro h
    obtain ⟨head, hhead, hgiven, hlayer, rfl⟩ := readEntry_eq_ok h
    obtain ⟨members, id, kind, rfl, hid, htype, rfl⟩ := readHead_eq_ok_iff.mp hhead
    obtain ⟨config, hconfig, hfits, rfl⟩ := readLayer_eq_ok_iff.mp hlayer
    refine ⟨_, .object hid htype hconfig hfits, ?_, ?_, ?_⟩
    · intro id hid
      exact hgiven id (Option.eq_some_of_filter_eq_some hid)
    · rw [IdSource.settle_filter]
      rfl
    · rw [IdSource.settle_filter]
  · rintro ⟨_, @⟨members, config, given, kind, hgiven, htype, hconfig, hfits⟩, hnew, rfl, rfl⟩
    have hentry : entryId (.obj members) = given := by simp [entryId, hgiven, Except.toOption]
    have hfind : model.find? given = none := by
      refine Model.find?_eq_none_iff.mpr fun id hid hmem => ?_
      cases hempty' : id.isEmpty with
      | true => exact hempty id hmem hempty' (hentry.trans hid)
      | false => exact hnew id (by simp [hid, Option.filter, hempty']) hmem
    have hhead : readHead position (.obj members) = .ok ⟨members, given, kind⟩ :=
      readHead_eq_ok_iff.mpr ⟨members, given, kind, rfl, hgiven, htype, rfl⟩
    have hlayer : readLayer position ⟨members, given, kind⟩ (ids.settle given).1 =
        .ok (Description.layer ⟨given, kind, config⟩ (ids.settle given).1) :=
      readLayer_eq_ok_iff.mpr ⟨config, hconfig, hfits, rfl⟩
    have hread : readEntry model position (.obj members) ids =
        (readLayer position ⟨members, given, kind⟩ (ids.settle given).1, (ids.settle given).2) := by
      simp [readEntry, hhead, hfind]
    rw [hread, hlayer, IdSource.settle_filter]
    rfl

/-! ### Ids -/

/-- The ids that will be drawn for entries are new to them and to the layers that were read already,
and no entry gives an empty id that one of those layers has. -/
structure Clear (ids : IdSource) (entries : List Value) (model : Model) : Prop where
  fresh : ids.NewTo entries
  drawn : ∀ id ∈ ids.upcoming (entries.countP isUnnamed), id ∉ model.ids
  empty : ∀ id ∈ model.ids, id.isEmpty = true → id ∉ entries.filterMap entryId

variable {ids : IdSource} {entry : Value} {rest : List Value} {model : Model}
  {description : Description}

theorem mem_entryIds_cons {id : Text} :
    id ∈ (entry :: rest).filterMap entryId ↔
      entryId entry = some id ∨ id ∈ rest.filterMap entryId := by
  simp

theorem Clear.empty_head (h : Clear ids (entry :: rest) model) :
    ∀ id ∈ model.ids, id.isEmpty = true → entryId entry ≠ some id := by
  intro id hmem hempty hentry
  exact h.empty id hmem hempty (mem_entryIds_cons.mpr (.inl hentry))

theorem ids_append_layer (id : Text) :
    Model.ids ⟨model.layers ++ [description.layer id]⟩ = model.ids ++ [id] := by
  simp [Model.ids, Description.layer]

/-- What is clear before an entry is clear after it, for the other entries. -/
theorem Clear.step (h : Clear ids (entry :: rest) model) (htells : Tells entry description) :
    Clear (ids.settle description.id).2 rest
      ⟨model.layers ++ [description.layer (ids.settle description.id).1]⟩ := by
  obtain ⟨⟨hdistinct, hnotGiven⟩, hdrawn, hempty⟩ := h
  rcases htells.id_cases with ⟨id, hid, hnonempty, hentry, hnamed⟩ | ⟨hid, hunnamed⟩
  · have hcount : (entry :: rest).countP isUnnamed = rest.countP isUnnamed := by simp [hnamed]
    rw [hcount] at hdistinct hnotGiven hdrawn
    rw [hid, IdSource.settle_some _ hnonempty]
    refine ⟨⟨hdistinct, fun other hother hgiven => ?_⟩, fun other hother => ?_, ?_⟩
    · exact hnotGiven other hother (mem_entryIds_cons.mpr (.inr hgiven))
    · rw [ids_append_layer, List.mem_append, List.mem_singleton, not_or]
      refine ⟨hdrawn other hother, ?_⟩
      rintro rfl
      exact hnotGiven other hother (mem_entryIds_cons.mpr (.inl hentry))
    · intro other hother hotherEmpty hgiven
      rw [ids_append_layer, List.mem_append, List.mem_singleton] at hother
      rcases hother with hmem | rfl
      · exact hempty other hmem hotherEmpty (mem_entryIds_cons.mpr (.inr hgiven))
      · simp [hnonempty] at hotherEmpty
  · have hcount : (entry :: rest).countP isUnnamed = rest.countP isUnnamed + 1 := by simp [hunnamed]
    rw [hcount, IdSource.upcoming_succ] at hdistinct hnotGiven hdrawn
    obtain ⟨hfirst, hothers⟩ := List.nodup_cons.mp hdistinct
    rw [hid, IdSource.settle_none]
    refine ⟨⟨hothers, fun other hother hgiven => ?_⟩, fun other hother => ?_, ?_⟩
    · exact hnotGiven other (List.mem_cons_of_mem _ hother) (mem_entryIds_cons.mpr (.inr hgiven))
    · rw [ids_append_layer, List.mem_append, List.mem_singleton, not_or]
      refine ⟨hdrawn other (List.mem_cons_of_mem _ hother), ?_⟩
      rintro rfl
      exact hfirst hother
    · intro other hother hotherEmpty hgiven
      rw [ids_append_layer, List.mem_append, List.mem_singleton] at hother
      rcases hother with hmem | rfl
      · exact hempty other hmem hotherEmpty (mem_entryIds_cons.mpr (.inr hgiven))
      · exact hnotGiven _ List.mem_cons_self (mem_entryIds_cons.mpr (.inr hgiven))

theorem Tells.layers_cons (h : Tells entry description) (others : List Description) :
    layers (description :: others) ids = description.layer (ids.settle description.id).1 ::
      layers others (ids.settle description.id).2 := by
  rcases h.id_cases with ⟨id, hid, hnonempty, -, -⟩ | ⟨hid, -⟩
  · rw [layers, hid, IdSource.settle_some _ hnonempty]
  · rw [layers, hid, IdSource.settle_none]

theorem Tells.advance_cons (h : Tells entry description) :
    (ids.settle description.id).2.advance (rest.countP isUnnamed) =
      ids.advance ((entry :: rest).countP isUnnamed) := by
  rcases h.id_cases with ⟨id, hid, hnonempty, -, hnamed⟩ | ⟨hid, hunnamed⟩
  · rw [hid, IdSource.settle_some _ hnonempty]
    simp [hnamed]
  · rw [hid, IdSource.settle_none]
    simp [hunnamed, IdSource.advance, IdSource.draw, Nat.add_assoc, Nat.add_comm 1]

/-! ### Payloads -/

/-- Ids of descriptions that are distinct and new to a model. -/
def Distinct (descriptions : List Description) (model : Model) : Prop :=
  (descriptions.filterMap Description.id).Nodup ∧
    ∀ id ∈ descriptions.filterMap Description.id, id ∉ model.ids

theorem mem_entryIds_of_tells {entries : List Value} {descriptions : List Description}
    (h : List.Forall₂ Tells entries descriptions) {id : Text}
    (hid : id ∈ descriptions.filterMap Description.id) : id ∈ entries.filterMap entryId := by
  induction h with
  | nil => simp at hid
  | cons htells hrest ih =>
    rw [List.filterMap_cons] at hid
    rcases htells.id_cases with ⟨named, hnamed, -, hentry, -⟩ | ⟨hunnamed, -⟩
    · rw [hnamed] at hid
      rcases List.mem_cons.mp hid with rfl | hmem
      · exact mem_entryIds_cons.mpr (.inl hentry)
      · exact mem_entryIds_cons.mpr (.inr (ih hmem))
    · rw [hunnamed] at hid
      exact mem_entryIds_cons.mpr (.inr (ih hid))

theorem distinct_cons (htells : Tells entry description) (hclear : Clear ids (entry :: rest) model)
    {others : List Description} (hothers : List.Forall₂ Tells rest others) :
    Distinct (description :: others) model ↔
      (∀ id, description.id = some id → id ∉ model.ids) ∧
        Distinct others
          ⟨model.layers ++ [description.layer (ids.settle description.id).1]⟩ := by
  simp only [Distinct, ids_append_layer, List.mem_append, List.mem_singleton, not_or]
  rcases htells.id_cases with ⟨id, hid, hnonempty, -, -⟩ | ⟨hid, hunnamed⟩
  · rw [List.filterMap_cons, hid, IdSource.settle_some _ hnonempty]
    simp only [List.nodup_cons, List.forall_mem_cons, Option.some.injEq, forall_eq']
    constructor
    · rintro ⟨⟨hnew, hnodup⟩, hmodel, hrest⟩
      exact ⟨hmodel, hnodup, fun other hother => ⟨hrest other hother, fun h => hnew (h ▸ hother)⟩⟩
    · rintro ⟨hmodel, hnodup, hrest⟩
      exact ⟨⟨fun hmem => (hrest id hmem).2 rfl, hnodup⟩, hmodel,
        fun other hother => (hrest other hother).1⟩
  · -- An id that is drawn is given by no entry.
    have hdrawn : ∀ id ∈ others.filterMap Description.id, id ≠ ids.draw.1 := by
      rintro _ hid rfl
      have hcount : (entry :: rest).countP isUnnamed = rest.countP isUnnamed + 1 := by
        simp [hunnamed]
      have hnotGiven := hclear.fresh.notGiven
      rw [hcount, IdSource.upcoming_succ] at hnotGiven
      exact hnotGiven _ List.mem_cons_self
        (mem_entryIds_cons.mpr (.inr (mem_entryIds_of_tells hothers hid)))
    rw [List.filterMap_cons, hid, IdSource.settle_none]
    simp only [reduceCtorEq, false_implies, implies_true, true_and]
    exact and_congr_right' (forall₂_congr fun id hid => (and_iff_left (hdrawn id hid)).symm)

/-- What is read for entries, after the layers of a model. -/
theorem readEntries_eq_ok_iff {entries : List Value} {read : Model} {after : IdSource}
    (h : Clear ids entries model) :
    readEntries model entries ids = (.ok read, after) ↔
      ∃ descriptions, List.Forall₂ Tells entries descriptions ∧ Distinct descriptions model ∧
        read = ⟨model.layers ++ layers descriptions ids⟩ ∧
        after = ids.advance (entries.countP isUnnamed) := by
  induction entries generalizing model ids with
  | nil => simp [readEntries, Distinct, layers, IdSource.advance, eq_comm]
  | cons entry rest ih =>
    rw [readEntries]
    constructor
    · intro hread
      split at hread
      · simp at hread
      next layer between hentry =>
        obtain ⟨description, htells, hnew, rfl, rfl⟩ :=
          (readEntry_eq_ok_iff h.empty_head).mp hentry
        obtain ⟨others, hothers, hdistinct, rfl, rfl⟩ := (ih (h.step htells)).mp hread
        refine ⟨description :: others, .cons htells hothers,
          (distinct_cons htells h hothers).mpr ⟨hnew, hdistinct⟩, ?_, htells.advance_cons⟩
        rw [htells.layers_cons, List.append_assoc]
        rfl
    · rintro ⟨descriptions, hall, hdistinct, rfl, rfl⟩
      obtain ⟨description, others, htells, hothers, rfl⟩ := List.forall₂_cons_left_iff.mp hall
      obtain ⟨hnew, hrest⟩ := (distinct_cons htells h hothers).mp hdistinct
      rw [(readEntry_eq_ok_iff h.empty_head).mpr ⟨description, htells, hnew, rfl, rfl⟩]
      refine (ih (h.step htells)).mpr ⟨others, hothers, hrest, ?_, htells.advance_cons.symm⟩
      rw [htells.layers_cons, List.append_assoc]
      rfl

theorem describes_iff {payload : Value} {descriptions : List Description} :
    Describes payload descriptions ↔ ∃ entries, payload = .list entries ∧
      List.Forall₂ Tells entries descriptions ∧
      (descriptions.filterMap Description.id).Nodup := by
  constructor
  · rintro ⟨hentries, hids⟩
    exact ⟨_, rfl, hentries, hids⟩
  · rintro ⟨entries, rfl, hentries, hids⟩
    exact .list hentries hids

theorem ofPayload_eq_ok_iff {payload : Value} {read : Model} {after : IdSource}
    (h : ids.NewTo (entriesOf payload)) :
    Model.ofPayload payload ids = (.ok read, after) ↔
      ∃ descriptions, Describes payload descriptions ∧ read = ⟨layers descriptions ids⟩ ∧
        after = ids.advance ((entriesOf payload).countP isUnnamed) := by
  cases payload with
  | list entries =>
    have hclear : Clear ids entries .empty :=
      ⟨h, by simp [Model.ids, Model.empty], by simp [Model.ids, Model.empty]⟩
    refine (readEntries_eq_ok_iff hclear).trans ?_
    simp [describes_iff, entriesOf, Distinct, Model.ids, Model.empty, and_assoc]
  | _ => simp [Model.ofPayload, describes_iff]

/-! ### Entries that are alike -/

theorem Configures.unique {config : Value} {members others : Members}
    (h : Configures config members) (hothers : Configures config others) : members = others := by
  have hnil : ∀ {members : Members}, (Value.obj members).isGiven = false → members = [] := by
    intro members hgiven
    simpa [Value.isGiven] using hgiven
  cases h with
  | object =>
    cases hothers with
    | object => rfl
    | absent hgiven => exact hnil hgiven
  | absent hgiven =>
    cases hothers with
    | object => exact (hnil hgiven).symm
    | absent => rfl

theorem mem_known_iff {kind : Kind} {config : Members} {member : Text × Value} :
    member ∈ known kind config ↔
      member ∈ config ∧ ∃ field ∈ kind.fields, Text.ofString field.key = member.1 := by
  rw [known, List.mem_filter]
  refine and_congr_right' ⟨fun h => ?_, ?_⟩
  · obtain ⟨field, hfield⟩ := Option.isSome_iff_exists.mp h
    exact ⟨field, Kind.field?_eq_some hfield⟩
  · rintro ⟨field, hfield, hkey⟩
    rw [← hkey, Kind.field?_of_mem hfield]
    rfl

theorem fits_iff_known {kind : Kind} {config : Members} :
    Fits kind config ↔ Fits kind (known kind config) := by
  constructor
  · intro h member hmember
    exact h member (mem_known_iff.mp hmember).1
  · intro h member hmember field hfield hkey
    exact h member (mem_known_iff.mpr ⟨hmember, field, hfield, hkey⟩) field hfield hkey

theorem setBy_known {kind : Kind} {field : Field} (hfield : field ∈ kind.fields) (config : Members)
    (value : Value) : field.setBy (known kind config) value = field.setBy config value := by
  have hkept : ∀ value : Value,
      (kind.field? (Text.ofString field.key, value).1).isSome = true := by
    intro value
    simp [Kind.field?_of_mem hfield]
  rw [Field.setBy, Field.setBy, known, Entries.last?_filter hkept]

theorem Alike.symm {entry other : Value} (h : Alike entry other) : Alike other entry := by
  cases h with
  | refl => exact .refl entry
  | object htype hother hid hconfig hotherConfig hdistinct hknown =>
    exact .object hother htype hid.symm hotherConfig hconfig
      ((hknown.map Prod.fst).nodup_iff.mp hdistinct) hknown.symm

/-- Alike entries describe the same layer. -/
theorem Alike.tells {entry other : Value} (h : Alike entry other)
    (htells : Tells entry description) :
    ∃ same, Tells other same ∧ same.id = description.id ∧ same.layer = description.layer := by
  cases h with
  | refl => exact ⟨description, htells, rfl, rfl⟩
  | @object members others config otherConfig kind htype hother hid hconfig hotherConfig
      hdistinct hknown =>
    obtain @⟨_, read, id, readKind, hgiven, hreadType, hread, hfits⟩ := htells
    obtain rfl : kind = readKind := by
      rw [htype, Option.some.injEq] at hreadType
      exact Option.some.inj
        ((Kind.ofValue?_eq_some_iff.mpr rfl).symm.trans (Kind.ofValue?_eq_some_iff.mpr hreadType))
    obtain rfl := hconfig.unique hread
    have hotherFits : Fits kind otherConfig :=
      fits_iff_known.mpr fun member hmember =>
        fits_iff_known.mp hfits member (hknown.mem_iff.mpr hmember)
    refine ⟨_, .object (hid ▸ hgiven) hother hotherConfig hotherFits, rfl, funext fun id => ?_⟩
    simp only [Description.layer, Layer.mk.injEq, true_and, Config.mk.injEq]
    refine List.map_congr_left fun field hfield => ?_
    rw [← setBy_known hfield otherConfig, ← setBy_known hfield config, Field.setBy, Field.setBy,
      Entries.last?_perm hknown hdistinct]

theorem Alike.isUnnamed {entry other : Value} (h : Alike entry other) :
    isUnnamed entry = isUnnamed other := by
  cases h with
  | refl => rfl
  | object htype hother hid => rw [Payload.isUnnamed, Payload.isUnnamed, hid]

theorem Alike.entryId {entry other : Value} (h : Alike entry other) :
    entryId entry = entryId other := by
  cases h with
  | refl => rfl
  | object htype hother hid => rw [Payload.entryId, Payload.entryId, hid]

theorem ids_alike {entries others : List Value} (h : List.Forall₂ Alike entries others) :
    entries.countP isUnnamed = others.countP isUnnamed ∧
      entries.filterMap entryId = others.filterMap entryId := by
  induction h with
  | nil => exact ⟨rfl, rfl⟩
  | cons hfirst hrest ih =>
    simp only [List.countP_cons, List.filterMap_cons, hfirst.isUnnamed, hfirst.entryId, ih.1, ih.2,
      and_self]

theorem newTo_alike {entries others : List Value} (h : List.Forall₂ Alike entries others)
    (hnew : ids.NewTo entries) : ids.NewTo others := by
  obtain ⟨hcount, hids⟩ := ids_alike h
  obtain ⟨hdistinct, hnotGiven⟩ := hnew
  rw [hcount] at hdistinct hnotGiven
  rw [hids] at hnotGiven
  exact ⟨hdistinct, hnotGiven⟩

/-- Entries that are alike describe the same ids and layers. -/
theorem tells_alike {entries others : List Value} (h : List.Forall₂ Alike entries others)
    {descriptions : List Description} (htells : List.Forall₂ Tells entries descriptions) :
    ∃ same, List.Forall₂ Tells others same ∧
      same.filterMap Description.id = descriptions.filterMap Description.id ∧
      ∀ ids, layers same ids = layers descriptions ids := by
  induction h generalizing descriptions with
  | nil =>
    obtain rfl := List.forall₂_nil_left_iff.mp htells
    exact ⟨[], .nil, rfl, fun _ => rfl⟩
  | cons hfirst hrest ih =>
    obtain ⟨description, later, hdescription, hlater, rfl⟩ := List.forall₂_cons_left_iff.mp htells
    obtain ⟨first, hfirstTold, hid, hlayer⟩ := hfirst.tells hdescription
    obtain ⟨same, hsame, hids, hlayers⟩ := ih hlater
    refine ⟨first :: same, .cons hfirstTold hsame, ?_, fun ids => ?_⟩
    · rw [List.filterMap_cons, List.filterMap_cons, hid, hids]
    · rw [layers, layers, hid, hlayer, hlayers, hlayers]

/-- What one payload is read as, a payload whose entries are alike is read as too. -/
theorem ofPayload_alike {entries others : List Value} (h : List.Forall₂ Alike entries others)
    (hnew : ids.NewTo entries) {read : Model} {after : IdSource}
    (hread : Model.ofPayload (.list entries) ids = (.ok read, after)) :
    Model.ofPayload (.list others) ids = (.ok read, after) := by
  obtain ⟨descriptions, hdescribes, rfl, rfl⟩ := (ofPayload_eq_ok_iff hnew).mp hread
  cases hdescribes with
  | list htells hids =>
    obtain ⟨same, hsame, hsameIds, hlayers⟩ := tells_alike h htells
    refine (ofPayload_eq_ok_iff (newTo_alike h hnew)).mpr
      ⟨same, .list hsame (hsameIds ▸ hids), ?_, ?_⟩
    · rw [hlayers]
    · exact congrArg ids.advance (ids_alike h).1

end Payload

/-- A payload is read exactly if it is in the grammar, and then as the layers that its entries
describe, whatever else they hold and in whatever order. -/
theorem Model.ofPayload_ok_iff_describes {payload : Value} {ids : IdSource}
    (h : ids.NewTo (Payload.entriesOf payload)) :
    (∀ model after, ofPayload payload ids = (.ok model, after) ↔
      ∃ descriptions, Payload.Describes payload descriptions ∧
        model = ⟨Payload.layers descriptions ids⟩ ∧
        after = ids.advance ((Payload.entriesOf payload).countP Payload.isUnnamed)) ∧
    ∀ entries others, payload = .list entries → List.Forall₂ Payload.Alike entries others →
      ∀ model after, ofPayload (.list others) ids = (.ok model, after) ↔
        ofPayload payload ids = (.ok model, after) := by
  refine ⟨fun model after => Payload.ofPayload_eq_ok_iff h, ?_⟩
  rintro entries others rfl halike model after
  have hback : List.Forall₂ Payload.Alike others entries :=
    List.Forall₂.flip (halike.imp fun _ _ halike => halike.symm)
  exact ⟨Payload.ofPayload_alike hback (Payload.newTo_alike halike h),
    Payload.ofPayload_alike halike h⟩

/-- Entries under both names of a configuration, with a member that is no field, an id that is a
number, and an empty id. -/
def mixedEntries : List Value := [
  .obj [("type", .str "linear"), ("params", .obj [
    ("output_dim", .int (-4)), ("note", .null), ("use_bias", .bool false)])],
  .obj [("id", .int 7), ("type", .str "dropout"), ("config", .obj [("rate", .real .tenth)])],
  .obj [("config", .bool false), ("id", .str ""), ("type", .str "relu")]]

/-- The same entries in other words. -/
def reorderedEntries : List Value := [
  .obj [("config", .obj [("use_bias", .bool false), ("output_dim", .int (-4))]),
    ("type", .str "linear")],
  .obj [("id", .int 7), ("type", .str "dropout"), ("config", .obj [("rate", .real .tenth)])],
  .obj [("config", .bool false), ("id", .str ""), ("type", .str "relu")]]

theorem Model.ofPayload_ok_iff_describes_mixedEntries :
    IdSource.counting.NewTo mixedEntries ∧
      (∀ model after, ofPayload (.list mixedEntries) .counting = (.ok model, after) ↔
        ∃ descriptions, Payload.Describes (.list mixedEntries) descriptions ∧
          model = ⟨Payload.layers descriptions .counting⟩ ∧
          after = IdSource.counting.advance (mixedEntries.countP Payload.isUnnamed)) ∧
      ∀ model after, ofPayload (.list reorderedEntries) .counting = (.ok model, after) ↔
        ofPayload (.list mixedEntries) .counting = (.ok model, after) :=
  have hnew : IdSource.counting.NewTo mixedEntries := ⟨by decide +kernel, by decide +kernel⟩
  have halike : List.Forall₂ Payload.Alike mixedEntries reorderedEntries :=
    .cons (@Payload.Alike.object _ _ _ _ .linear (by decide +kernel) (by decide +kernel) rfl
      (.object _) (.object _) (by decide +kernel) (by decide +kernel))
      (.cons (.refl _) (.cons (.refl _) .nil))
  ⟨hnew, (ofPayload_ok_iff_describes hnew).1,
    (ofPayload_ok_iff_describes hnew).2 mixedEntries reorderedEntries rfl halike⟩

end LayerStack
