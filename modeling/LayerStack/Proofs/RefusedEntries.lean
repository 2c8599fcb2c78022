import LayerStack.Proofs.Grammar
import LayerStack.Proofs.Refusals

/-! Which entry of a payload is refused, and what the refusal says.  Entries are read one after the
other, so that there is one entry which cannot be read although all before it can; nothing after it
is looked at.  The refusal is about the layer of that entry: it names the id that the entry gives,
or the one that was drawn for it, as far as there is one at that moment. -/

namespace LayerStack

/-! ### Fields -/

/-- Why a field refuses a value.  A value that would be shown has to be one that can be written. -/
inductive Field.Refuses (field : Field) : Value → Refusal → Prop
  | notAFlag {value : Value} (hrange : field.range = .flag) (hvalue : ∀ b, value ≠ .bool b)
      (hwritable : value.isWritable = true) : Refuses field value (.notAFlag field.key value)
  | notANumber {value : Value} (hrange : field.range ≠ .flag) (hvalue : ∀ x, value ≠ .num x)
      (hwritable : value.isWritable = true) : Refuses field value (.notANumber field.key value)
  | notFinite {x : Binary64} (hrange : field.range ≠ .flag) (hvalue : x.isFinite = false) :
      Refuses field (.num (.real x)) (.notFinite field.key (.num (.real x)))

theorem Fault.showing_eq_refused_iff {value : Value} {shown why : Refusal}
    {id layerId : Option Text} :
    showing value (.refused shown id) = .refused why layerId ↔
      value.isWritable = true ∧ shown = why ∧ id = layerId := by
  unfold showing
  split <;> simp_all

theorem Number.checkFinite_eq_ok_false {x : Number} :
    x.checkFinite = .ok false ↔ ∃ double, x = .real double ∧ double.isFinite = false := by
  cases x with
  | int n =>
    rw [checkFinite_int]
    split <;> simp
  | real double => simp [checkFinite]

theorem Number.checkFinite_eq_error {x : Number} {fault : Fault}
    (h : x.checkFinite = .error fault) : fault = .wholeTooLarge := by
  cases x with
  | int n =>
    rw [checkFinite_int] at h
    split at h <;> simp at h
    exact h.symm
  | real double => simp [checkFinite] at h

/-- A value is refused for the reasons that a field has, on behalf of the layer that is named. -/
theorem Field.coerce_eq_refused_iff {field : Field} {value : Value} {id layerId : Option Text}
    {why : Refusal} :
    field.coerce value id = .error (.refused why layerId) ↔
      field.Refuses value why ∧ layerId = id := by
  constructor
  · intro h
    unfold coerce at h
    split at h
    · simp at h
    next value hrange hvalue =>
      simp only [Except.error.injEq, Fault.showing_eq_refused_iff] at h
      obtain ⟨hwritable, rfl, rfl⟩ := h
      exact ⟨.notAFlag hrange (by simpa using hvalue) hwritable, rfl⟩
    next range x hrange =>
      split at h
      next fault hfault =>
        obtain rfl := Number.checkFinite_eq_error hfault
        simp at h
      next hchecked =>
        obtain ⟨double, rfl, hfinite⟩ := Number.checkFinite_eq_ok_false.mp hchecked
        simp only [Except.error.injEq, Fault.showing_eq_refused_iff] at h
        obtain ⟨-, rfl, rfl⟩ := h
        exact ⟨.notFinite hrange hfinite, rfl⟩
      · split at h <;> simp at h
    next hvalue hrange _ =>
      simp only [Except.error.injEq, Fault.showing_eq_refused_iff] at h
      obtain ⟨hwritable, rfl, rfl⟩ := h
      exact ⟨.notANumber hrange hvalue hwritable, rfl⟩
  · rintro ⟨h, rfl⟩
    obtain ⟨key, range, initial⟩ := field
    cases h with
    | @notAFlag value hrange hvalue hwritable =>
      obtain rfl : range = .flag := hrange
      cases value <;> simp [coerce, Fault.showing_eq hwritable] at hvalue ⊢
    | @notANumber value hrange hvalue hwritable =>
      cases range <;> cases value <;> simp [coerce, Fault.showing_eq hwritable] at hrange hvalue ⊢
    | @notFinite x hrange hvalue =>
      have hshown := Fault.showing_eq (Value.isWritable_real x)
      cases range <;> simp [coerce, Number.checkFinite, hvalue, hshown] at hrange ⊢

theorem Layer.update_eq_refused_iff {layer : Layer} {field : Field} {value : Value} {why : Refusal}
    {layerId : Option Text} (hfield : field ∈ layer.kind.fields) :
    layer.update (Text.ofString field.key) value = .error (.refused why layerId) ↔
      field.Refuses value why ∧ layerId = some layer.id := by
  rw [← Field.coerce_eq_refused_iff, update, Kind.field?_of_mem hfield]
  cases hheld : field.coerce value (some layer.id) <;> simp [hheld]

theorem Field.Refuses.not_takes {field : Field} {value : Value} {why : Refusal}
    (h : field.Refuses value why) : ¬ field.range.Takes value := by
  intro htakes
  have hrefused : field.coerce value none = .error (.refused why none) :=
    coerce_eq_refused_iff.mpr ⟨h, rfl⟩
  have hheld : field.coerce value none = .ok (field.range.clamp value) :=
    coerce_eq_ok_iff.mpr ⟨htakes, rfl⟩
  simp [hrefused] at hheld

namespace Payload

/-! ### Configurations -/

/-- Members come to one that is named like a field of the kind, and refused by it, after others that
fit the kind. -/
def Unfit (kind : Kind) (members : Members) (why : Refusal) : Prop :=
  ComesTo (fun before member => Fits kind before ∧
    ∃ field ∈ kind.fields, Text.ofString field.key = member.1 ∧ field.Refuses member.2 why) members

section

variable {kind : Kind} {field : Field} {key : Text} {value : Value} {rest : Members} {why : Refusal}

@[simp] theorem not_unfit_nil : ¬ Unfit kind [] why := not_comesTo_nil

theorem unfit_cons_of_field (hfield : field ∈ kind.fields) :
    Unfit kind ((Text.ofString field.key, value) :: rest) why ↔
      field.Refuses value why ∨ field.range.Takes value ∧ Unfit kind rest why := by
  have hfirst : (∃ other ∈ kind.fields, Text.ofString other.key = Text.ofString field.key ∧
      other.Refuses value why) ↔ field.Refuses value why := by
    constructor
    · rintro ⟨other, hother, hkey, hrefuses⟩
      rwa [← Kind.eq_of_key_eq hother hfield (Text.ofString_inj.mp hkey)]
    · exact fun hrefuses => ⟨field, hfield, rfl, hrefuses⟩
  have hnil : Fits kind [] := by simp [Fits]
  rw [Unfit, comesTo_cons]
  simp only [fits_cons_of_field hfield, hfirst, hnil, true_and]
  by_cases htakes : field.range.Takes value <;> simp [htakes, Unfit]

theorem unfit_cons_of_none (h : kind.field? key = none) :
    Unfit kind ((key, value) :: rest) why ↔ Unfit kind rest why := by
  have hfirst : ¬ ∃ field ∈ kind.fields, Text.ofString field.key = key ∧
      field.Refuses value why := by
    rintro ⟨field, hfield, rfl, -⟩
    simp [Kind.field?_of_mem hfield] at h
  rw [Unfit, comesTo_cons]
  simp [fits_cons_of_none h, hfirst, Unfit]

end

/-- Members are refused for the first of them that is. -/
theorem updateAll_eq_refused_iff {layer : Layer} {members : Members} {why : Refusal}
    {layerId : Option Text} :
    updateAll layer members = .error (.refused why layerId) ↔
      Unfit layer.kind members why ∧ layerId = some layer.id := by
  induction members generalizing layer with
  | nil => simp [updateAll]
  | cons member rest ih =>
    obtain ⟨key, value⟩ := member
    rw [updateAll]
    cases hfield : layer.kind.field? key with
    | none => simpa [unfit_cons_of_none hfield] using ih
    | some field =>
      obtain ⟨hmem, rfl⟩ := Kind.field?_eq_some hfield
      rw [unfit_cons_of_field hmem]
      cases hupdate : layer.update (Text.ofString field.key) value with
      | error fault =>
        have hnot : ¬ field.range.Takes value := by
          intro htakes
          simp [(Layer.update_field_eq_ok_iff hmem).mpr ⟨htakes, rfl⟩] at hupdate
        have hrefused : layer.update (Text.ofString field.key) value =
            .error (.refused why layerId) ↔ _ := Layer.update_eq_refused_iff hmem
        simpa [hnot, hupdate] using hrefused
      | ok next =>
        obtain ⟨htakes, rfl⟩ := (Layer.update_field_eq_ok_iff hmem).mp hupdate
        have hnot : ¬ field.Refuses value why := fun hrefuses => hrefuses.not_takes htakes
        have hrest := @ih
          { layer with config := layer.config.set field.key (field.range.clamp value) }
        simpa [htakes, hnot] using hrest

/-- How a configuration is at fault, in an entry of a kind at a position. -/
inductive Misconfigures (position : Nat) (kind : Kind) (config : Value) : Refusal → Prop
  | notAnObject (h : ∀ members, ¬ Configures config members) :
      Misconfigures position kind config (.configNotAnObject position)
  | unfit {members : Members} {why : Refusal} (hconfig : Configures config members)
      (hunfit : Unfit kind members why) : Misconfigures position kind config why

theorem configMembers_eq_error {position : Nat} {id : Text} {config : Value} {fault : Fault}
    (h : configMembers position id config = .error fault) :
    (∀ members, ¬ Configures config members) ∧
      fault = .refused (.configNotAnObject position) (some id) := by
  refine ⟨fun members hconfig => ?_, ?_⟩
  · simp [configMembers_eq_ok_iff.mpr hconfig] at h
  · unfold configMembers at h
    split at h
    · split at h <;> simp at h
      exact h.symm
    · simp at h

theorem readLayer_eq_refused_iff {position : Nat} {head : Head} {id : Text} {why : Refusal}
    {layerId : Option Text} :
    readLayer position head id = .error (.refused why layerId) ↔
      Misconfigures position head.kind (configuration head.members) why ∧ layerId = some id := by
  rw [readLayer, givenConfig_eq]
  cases hmembers : configMembers position id (configuration head.members) with
  | error fault =>
    obtain ⟨hno, rfl⟩ := configMembers_eq_error hmembers
    simp only [Except.error.injEq, Fault.refused.injEq]
    constructor
    · rintro ⟨rfl, rfl⟩
      exact ⟨.notAnObject hno, rfl⟩
    · rintro ⟨h, rfl⟩
      cases h with
      | notAnObject => exact ⟨rfl, rfl⟩
      | unfit hconfig => exact absurd hconfig (hno _)
  | ok members =>
    have hconfig := configMembers_eq_ok_iff.mp hmembers
    refine updateAll_eq_refused_iff.trans (and_congr_left' ⟨.unfit hconfig, fun h => ?_⟩)
    cases h with
    | notAnObject hno => exact absurd hconfig (hno members)
    | unfit hother hunfit => exact hconfig.unique hother ▸ hunfit

/-! ### Entries -/

/-- Why an entry at a position is refused after the layers of a model, and the id of the layer that
the refusal is about.  Until its type is known, an entry has the id that it gives, or none; from
then on, one that gives none or an empty one has the next id of the source. -/
inductive Refuses (model : Model) (position : Nat) (ids : IdSource) :
    Value → Refusal → Option Text → Prop
  | notAnObject {entry : Value} (h : ∀ members, entry ≠ .obj members) :
      Refuses model position ids entry (.entryNotAnObject position) none
  | unknownType {members : Members} {given : Option Text} (hid : givenId members = .ok given)
      (h : ∀ kind : Kind, members.get? "type" ≠ some (.str kind.name))
      (hwritable : (givenType members).isWritable = true) :
      Refuses model position ids (.obj members) (.unknownType (givenType members)) given
  | duplicateId {members : Members} {kind : Kind} {id : Text}
      (hid : givenId members = .ok (some id))
      (htype : members.get? "type" = some (.str kind.name)) (hmem : id ∈ model.ids) :
      Refuses model position ids (.obj members) (.duplicateId id) (some id)
  | misconfigured {members : Members} {given : Option Text} {kind : Kind} {why : Refusal}
      (hid : givenId members = .ok given)
      (htype : members.get? "type" = some (.str kind.name))
      (hnew : ∀ id, given = some id → id ∉ model.ids)
      (hconfig : Misconfigures position kind (configuration members) why) :
      Refuses model position ids (.obj members) why (some (ids.settle given).1)

theorem readHead_eq_refused_iff {position : Nat} {entry : Value} {why : Refusal}
    {layerId : Option Text} :
    readHead position entry = .error (.refused why layerId) ↔
      ((∀ members, entry ≠ .obj members) ∧ why = .entryNotAnObject position ∧ layerId = none) ∨
        ∃ members : Members, entry = .obj members ∧ givenId members = .ok layerId ∧
          (∀ kind : Kind, members.get? "type" ≠ some (.str kind.name)) ∧
          (givenType members).isWritable = true ∧ why = .unknownType (givenType members) := by
  constructor
  · intro h
    unfold readHead at h
    split at h
    next members =>
      split at h
      next fault hid =>
        obtain rfl : fault = .refused why layerId := by simpa using h
        simp [givenId_eq_error_iff] at hid
      · simp at h
      next id hid hkind =>
        simp only [Except.error.injEq, Fault.showing_eq_refused_iff] at h
        obtain ⟨hwritable, rfl, rfl⟩ := h
        refine .inr ⟨members, rfl, hid, fun kind htype => ?_, hwritable, rfl⟩
        simp [givenType, htype, Kind.ofValue?_name] at hkind
    next hno => exact .inl ⟨hno, by simpa [eq_comm] using h⟩
  · rintro (⟨hno, rfl, rfl⟩ | ⟨members, rfl, hid, hno, hwritable, rfl⟩)
    · unfold readHead
      split
      next members => exact absurd rfl (hno members)
      next => rfl
    · cases hkind : Kind.ofValue? (givenType members) with
      | none => simp [readHead, hid, hkind, Fault.showing_eq hwritable]
      | some kind =>
        have htype := Kind.ofValue?_eq_some_iff.mp hkind
        cases hget : Entries.get? members "type" with
        | none => simp [givenType, hget] at htype
        | some type => exact absurd (by simpa [givenType, hget] using htype) (hno kind)

/-- An entry is refused for the first thing that is wrong with it. -/
theorem readEntry_eq_refused_iff {model : Model} {position : Nat} {entry : Value} {ids : IdSource}
    {why : Refusal} {layerId : Option Text} :
    (readEntry model position entry ids).1 = .error (.refused why layerId) ↔
      Refuses model position ids entry why layerId := by
  constructor
  · intro h
    unfold readEntry at h
    split at h
    next fault hhead =>
      obtain rfl : fault = .refused why layerId := by simpa using h
      rcases readHead_eq_refused_iff.mp hhead with
        ⟨hno, rfl, rfl⟩ | ⟨members, rfl, hid, hno, hwritable, rfl⟩
      · exact .notAnObject hno
      · exact .unknownType hid hno hwritable
    next head hhead =>
      obtain ⟨members, given, kind, rfl, hgiven, htype, rfl⟩ := readHead_eq_ok_iff.mp hhead
      split at h
      next id other hid hfind =>
        obtain rfl : given = some id := hid
        obtain ⟨rfl, rfl⟩ : _ ∧ _ := by simpa using h
        refine .duplicateId hgiven htype ?_
        by_contra hnew
        rw [Model.find?_eq_none.mpr hnew] at hfind
        simp at hfind
      next hnew =>
        obtain ⟨hconfig, rfl⟩ := readLayer_eq_refused_iff.mp h
        exact .misconfigured hgiven htype (Model.not_mem_of_find? hnew) hconfig
  · intro h
    cases h with
    | notAnObject hno =>
      have hhead : readHead position entry = .error _ :=
        readHead_eq_refused_iff.mpr (.inl ⟨hno, rfl, rfl⟩)
      simp [readEntry, hhead]
    | @unknownType members _ hid hno hwritable =>
      have hhead : readHead position (.obj members) = .error _ :=
        readHead_eq_refused_iff.mpr (.inr ⟨members, rfl, hid, hno, hwritable, rfl⟩)
      simp [readEntry, hhead]
    | @duplicateId members kind id hid htype hmem =>
      have hhead : readHead position (.obj members) = .ok _ :=
        readHead_eq_ok_iff.mpr ⟨members, some id, kind, rfl, hid, htype, rfl⟩
      cases hfind : model.find? (some id) with
      | none => exact absurd hmem (Model.find?_eq_none.mp hfind)
      | some other => simp [readEntry, hhead, hfind]
    | @misconfigured members given kind _ hid htype hnew hconfig =>
      have hhead : readHead position (.obj members) = .ok _ :=
        readHead_eq_ok_iff.mpr ⟨members, given, kind, rfl, hid, htype, rfl⟩
      have hfind : model.find? given = none := Model.find?_eq_none_iff.mpr hnew
      simpa [readEntry, hhead, hfind] using readLayer_eq_refused_iff.mpr ⟨hconfig, rfl⟩

/-- An id that is given and not empty is the one that the refusal is about. -/
theorem Refuses.layerId_of_given {model : Model} {position : Nat} {ids : IdSource} {entry : Value}
    {why : Refusal} {layerId : Option Text} (h : Refuses model position ids entry why layerId)
    {id : Text} (hid : entryId entry = some id) (hempty : id.isEmpty = false) :
    layerId = some id := by
  cases h with
  | notAnObject hno =>
    unfold entryId at hid
    split at hid
    next members => exact absurd rfl (hno members)
    next => simp at hid
  | unknownType hgiven => simpa [entryId, hgiven, Except.toOption] using hid
  | duplicateId hgiven => simpa [entryId, hgiven, Except.toOption] using hid
  | @misconfigured members given _ _ hgiven =>
    obtain rfl : given = some id := by simpa [entryId, hgiven, Except.toOption] using hid
    rw [IdSource.settle_some _ hempty]

/-! ### Payloads -/

/-- Entries that can be read on their own. -/
def Accepted (ids : IdSource) (entries : List Value) : Prop :=
  ∃ read after, Model.ofPayload (.list entries) ids = (.ok read, after)

/-- Entries are read from the first to the last, as far as they can be. -/
theorem readEntries_append (model : Model) (before rest : List Value) (ids : IdSource) :
    readEntries model (before ++ rest) ids =
      match readEntries model before ids with
      | (.error fault, after) => (.error fault, after)
      | (.ok read, drawn) => readEntries read rest drawn := by
  induction before generalizing model ids with
  | nil => rfl
  | cons entry before ih =>
    rw [List.cons_append, readEntries, readEntries]
    split
    · rfl
    · exact ih _ _

theorem length_readEntries {model read : Model} {entries : List Value} {ids after : IdSource}
    (h : readEntries model entries ids = (.ok read, after)) :
    read.layers.length = model.layers.length + entries.length := by
  induction entries generalizing model ids with
  | nil =>
    obtain ⟨rfl, -⟩ : model = read ∧ ids = after := by simpa [readEntries] using h
    rfl
  | cons entry rest ih =>
    rw [readEntries] at h
    split at h
    · simp at h
    · have hlength := ih h
      simp only [List.length_append, List.length_cons, List.length_nil] at hlength ⊢
      omega

/-- Entries that cannot be read come to one that cannot, after others that could be read. -/
theorem readEntries_eq_error {model : Model} {entries : List Value} {ids after : IdSource}
    {fault : Fault} (h : readEntries model entries ids = (.error fault, after)) :
    ∃ before entry rest read drawn, entries = before ++ entry :: rest ∧
      readEntries model before ids = (.ok read, drawn) ∧
      readEntry read (read.layers.length + 1) entry drawn = (.error fault, after) := by
  induction entries generalizing model ids with
  | nil => simp [readEntries] at h
  | cons entry rest ih =>
    rw [readEntries] at h
    split at h
    next hentry =>
      obtain ⟨rfl, rfl⟩ : _ ∧ _ := by simpa using h
      exact ⟨[], entry, rest, model, ids, rfl, rfl, hentry⟩
    next layer between hentry =>
      obtain ⟨before, found, later, read, drawn, rfl, hbefore, hfound⟩ := ih h
      refine ⟨entry :: before, found, later, read, drawn, rfl, ?_, hfound⟩
      rw [readEntries, hentry]
      exact hbefore

theorem Accepted.of_append {ids : IdSource} {before rest : List Value}
    (h : Accepted ids (before ++ rest)) : Accepted ids before := by
  obtain ⟨read, after, hread⟩ := h
  rw [Model.ofPayload, readEntries_append] at hread
  cases hbefore : readEntries .empty before ids with
  | mk result drawn =>
    cases result with
    | error fault => simp [hbefore] at hread
    | ok model => exact ⟨model, drawn, hbefore⟩

theorem Accepted.take_of_le {ids : IdSource} {entries : List Value} {m n : Nat} (hle : m ≤ n)
    (h : Accepted ids (entries.take n)) : Accepted ids (entries.take m) := by
  rw [← List.take_append_drop m (entries.take n), List.take_take, Nat.min_eq_left hle] at h
  exact h.of_append

/-- Entries can be read on their own up to one place at most. -/
theorem Accepted.end_iff {ids : IdSource} {entries : List Value} {place : Nat}
    (h : Accepted ids (entries.take place)) (hnot : ¬ Accepted ids (entries.take (place + 1)))
    (n : Nat) : Accepted ids (entries.take n) ∧ ¬ Accepted ids (entries.take (n + 1)) ↔
      n = place := by
  constructor
  · rintro ⟨hn, hnext⟩
    rcases Nat.lt_trichotomy n place with hlt | heq | hgt
    · exact absurd (h.take_of_le hlt) hnext
    · exact heq
    · exact absurd (hn.take_of_le hgt) hnot
  · rintro rfl
    exact ⟨h, hnot⟩

/-- The entry at a place is the one that a payload is refused for. -/
structure RefusedAt (entries : List Value) (ids : IdSource) (why : Refusal)
    (layerId : Option Text) (after : IdSource) (place : Nat) : Prop where
  /-- The entries before this one can be read on their own, and not with this one; that is so of no
  other. -/
  first : ∀ n, Accepted ids (entries.take n) ∧ ¬ Accepted ids (entries.take (n + 1)) ↔ n = place
  /-- The refusal is about this entry alone, after what was read and drawn for those before it. -/
  about : ∃ entry read drawn, entries[place]? = some entry ∧
    Model.ofPayload (.list (entries.take place)) ids = (.ok read, drawn) ∧
    Refuses read (place + 1) drawn entry why layerId ∧
    ∀ id, entryId entry = some id → id.isEmpty = false → layerId = some id
  /-- Nothing after this entry matters. -/
  rest : ∀ later, Model.ofPayload (.list (entries.take (place + 1) ++ later)) ids =
    (.error (.refused why layerId), after)

end Payload

/-- A list of entries that is refused is refused for one of them: the first that cannot be read
after those before it. -/
theorem Model.ofPayload_refused_at {entries : List Value} {ids after : IdSource} {why : Refusal}
    {layerId : Option Text}
    (h : ofPayload (.list entries) ids = (.error (.refused why layerId), after)) :
    ∃ place, Payload.RefusedAt entries ids why layerId after place := by
  obtain ⟨before, entry, rest, read, drawn, rfl, hbefore, hentry⟩ := Payload.readEntries_eq_error h
  have hlength : read.layers.length = before.length := by
    simpa [empty] using Payload.length_readEntries hbefore
  have htake : (before ++ entry :: rest).take before.length = before := by simp
  have htakeNext : (before ++ entry :: rest).take (before.length + 1) = before ++ [entry] := by
    simp [List.take_append]
  have hrefuses := Payload.readEntry_eq_refused_iff.mp (congrArg Prod.fst hentry)
  rw [hlength] at hrefuses
  have hread : ofPayload (.list ((before ++ entry :: rest).take before.length)) ids =
      (.ok read, drawn) := by
    rw [htake]
    exact hbefore
  have hlater : ∀ later, ofPayload (.list ((before ++ entry :: rest).take (before.length + 1) ++
      later)) ids = (.error (.refused why layerId), after) := by
    intro later
    rw [htakeNext, List.append_assoc, ofPayload, Payload.readEntries_append, hbefore]
    simp only [List.cons_append, Payload.readEntries, hentry]
  have hnot : ¬ Payload.Accepted ids ((before ++ entry :: rest).take (before.length + 1)) := by
    rintro ⟨model, left, haccepted⟩
    have herror := hlater []
    rw [List.append_nil, haccepted] at herror
    simp at herror
  exact ⟨before.length, Payload.Accepted.end_iff ⟨read, drawn, hread⟩ hnot,
    ⟨entry, read, drawn, by simp, hread, hrefuses,
      fun id hid hempty => hrefuses.layerId_of_given hid hempty⟩, hlater⟩

/-- Entries of which the second has an empty id and a rate that is no number. -/
def misratedEntries : List Value := [
  .obj [("type", .str "relu")],
  .obj [("id", .str ""), ("type", .str "dropout"), ("config", .obj [("rate", .str "high")])],
  .int 7]

theorem Model.ofPayload_refused_at_misratedEntries :
    ofPayload (.list misratedEntries) .counting =
        (.error (.refused (.notANumber "rate" (.str "high")) (some "2")),
          IdSource.counting.advance 2) ∧
      ∃ place, Payload.RefusedAt misratedEntries .counting (.notANumber "rate" (.str "high"))
        (some "2") (IdSource.counting.advance 2) place :=
  have h : ofPayload (.list misratedEntries) .counting =
      (.error (.refused (.notANumber "rate" (.str "high")) (some "2")),
        IdSource.counting.advance 2) := rfl
  ⟨h, ofPayload_refused_at h⟩

end LayerStack
