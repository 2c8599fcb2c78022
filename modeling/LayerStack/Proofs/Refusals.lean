import LayerStack.Proofs.Overflow
import LayerStack.Proofs.Totality
import LayerStack.Service.Answer

/-! How layers that are given from outside can be at fault.  Reading them and updating one of them
ends in a refusal for all that can be wrong but two things, both about whole numbers: one that is
too large for a double, where a field takes a number, and one that has too many digits to be
written, where a message would show it.  These are no refusals, and a request for them is not
answered; no JSON text holds a number of the second sort. -/

namespace LayerStack

def Fault.isRefusal : Fault → Bool
  | .refused _ _ => true
  | _ => false

/-- A result is there or is refused, unless a fault escapes: then it is that fault. -/
def RefusedUnless {α : Type} (escapes : Fault → Prop) (result : Except Fault α) : Prop :=
  ∀ fault, (result = .error fault ∧ fault.isRefusal = false) ↔ escapes fault

/-- The faults that are met when a value is read for a field, other than refusals. -/
inductive Field.Escapes (field : Field) : Value → Fault → Prop
  /-- A whole number without a finite double near it is given to a field of numbers. -/
  | tooLarge {n : Int} (range : field.range ≠ .flag) (large : Binary64.overflow ≤ |n|) :
    Escapes field (.num (.int n)) .wholeTooLarge
  /-- What is not of the sort of the field would be shown, but cannot be written. -/
  | unwritable {value : Value} (sort : field.range ≠ .flag → value.number? = none)
    (unwritable : value.isWritable = false) : Escapes field value .unwritable

/-- The faults that are met when the field with a key is given a value. -/
def Kind.Escapes (kind : Kind) (key : Text) (value : Value) (fault : Fault) : Prop :=
  ∃ field, kind.field? key = some field ∧ field.Escapes value fault

section RefusedUnless

variable {α : Type} {escapes : Fault → Prop}

@[simp] theorem refusedUnless_ok {a : α} :
    RefusedUnless escapes (.ok a) ↔ ∀ fault, ¬ escapes fault := by
  simp [RefusedUnless]

theorem refusedUnless_error {fault : Fault} :
    RefusedUnless escapes (.error fault : Except Fault α) ↔
      ∀ other, (fault = other ∧ other.isRefusal = false) ↔ escapes other := by
  simp [RefusedUnless]

@[simp] theorem refusedUnless_refused {why : Refusal} {id : Option Text} :
    RefusedUnless escapes (.error (.refused why id) : Except Fault α) ↔
      ∀ fault, ¬ escapes fault := by
  rw [refusedUnless_error]
  refine forall_congr' fun other => ?_
  cases other <;> simp [Fault.isRefusal]

@[simp] theorem refusedUnless_wholeTooLarge :
    RefusedUnless escapes (.error .wholeTooLarge : Except Fault α) ↔
      ∀ fault, escapes fault ↔ fault = .wholeTooLarge := by
  rw [refusedUnless_error]
  refine forall_congr' fun other => ?_
  cases other <;> simp [Fault.isRefusal]

@[simp] theorem refusedUnless_unwritable :
    RefusedUnless escapes (.error .unwritable : Except Fault α) ↔
      ∀ fault, escapes fault ↔ fault = .unwritable := by
  rw [refusedUnless_error]
  refine forall_congr' fun other => ?_
  cases other <;> simp [Fault.isRefusal]

/-- A refusal that shows a value is not met if the value cannot be written. -/
@[simp] theorem refusedUnless_showing {value : Value} {why : Refusal} {id : Option Text} :
    RefusedUnless escapes (.error (.showing value (.refused why id)) : Except Fault α) ↔
      ∀ fault, escapes fault ↔ fault = .unwritable ∧ value.isWritable = false := by
  cases hwritable : value.isWritable with
  | true => simp [Fault.showing_eq hwritable]
  | false => simp [Fault.showing_eq_unwritable hwritable]

end RefusedUnless

/-- Going through a list, one comes to an item for which something holds after the items before. -/
def ComesTo {α : Type} (P : List α → α → Prop) (items : List α) : Prop :=
  ∃ before item after, items = before ++ item :: after ∧ P before item

@[simp] theorem not_comesTo_nil {α : Type} {P : List α → α → Prop} : ¬ ComesTo P [] := by
  rintro ⟨before, item, after, heq, -⟩
  simp at heq

@[simp] theorem not_comesTo_false {α : Type} {items : List α} :
    ¬ ComesTo (fun _ _ => False) items := by
  rintro ⟨-, -, -, -, h⟩
  exact h

theorem comesTo_cons {α : Type} {P : List α → α → Prop} {first : α} {rest : List α} :
    ComesTo P (first :: rest) ↔
      P [] first ∨ ComesTo (fun before item => P (first :: before) item) rest := by
  constructor
  · rintro ⟨_ | ⟨b, before⟩, item, after, heq, hP⟩
    · obtain ⟨rfl, rfl⟩ := List.cons.inj heq
      exact .inl hP
    · obtain ⟨rfl, hrest⟩ := List.cons.inj heq
      exact .inr ⟨before, item, after, hrest, hP⟩
  · rintro (hP | ⟨before, item, after, rfl, hP⟩)
    · exact ⟨[], first, rest, rfl, hP⟩
    · exact ⟨first :: before, item, after, rfl, hP⟩

/-! ### Fields and layers -/

theorem Number.checkFinite_int (n : Int) :
    (int n).checkFinite = if |n| < Binary64.overflow then .ok true else .error .wholeTooLarge := by
  simp only [checkFinite, Binary64.isSome_ofInt?_iff]

namespace Field

variable {field : Field} {fault : Fault}

theorem escapes_flag (h : field.range = .flag) {value : Value} :
    field.Escapes value fault ↔ fault = .unwritable ∧ value.isWritable = false := by
  constructor
  · rintro (⟨range, -⟩ | ⟨-, unwritable⟩)
    · exact absurd h range
    · exact ⟨rfl, unwritable⟩
  · rintro ⟨rfl, unwritable⟩
    exact .unwritable (absurd h) unwritable

theorem escapes_int (h : field.range ≠ .flag) {n : Int} :
    field.Escapes (.num (.int n)) fault ↔
      fault = .wholeTooLarge ∧ Binary64.overflow ≤ |n| := by
  constructor
  · rintro (⟨-, large⟩ | ⟨sort, -⟩)
    · exact ⟨rfl, large⟩
    · exact absurd (sort h) (by simp [Value.number?])
  · rintro ⟨rfl, large⟩
    exact .tooLarge h large

theorem not_escapes_real {x : Binary64} : ¬ field.Escapes (.num (.real x)) fault := by
  rintro (_ | ⟨-, unwritable⟩)
  simp [Value.isWritable_real] at unwritable

theorem escapes_other {value : Value} (hvalue : ∀ x, value ≠ .num x) :
    field.Escapes value fault ↔ fault = .unwritable ∧ value.isWritable = false := by
  constructor
  · rintro (_ | ⟨-, unwritable⟩)
    · exact absurd rfl (hvalue _)
    · exact ⟨rfl, unwritable⟩
  · rintro ⟨rfl, unwritable⟩
    refine .unwritable (fun _ => ?_) unwritable
    cases value <;> simp_all [Value.number?, Value.isWritable_bool]

theorem coerce_refused (field : Field) (value : Value) (layerId : Option Text) :
    RefusedUnless (field.Escapes value) (field.coerce value layerId) := by
  obtain ⟨key, range, initial⟩ := field
  cases value with
  | bool b => cases range <;> simp [coerce, escapes_flag, escapes_other, Value.isWritable_bool]
  | num x =>
    cases x with
    | int n =>
      by_cases hlarge : |n| < Binary64.overflow <;> cases range <;>
        simp [coerce, Number.checkFinite_int, hlarge, escapes_flag, escapes_int, not_lt.mp]
    | real x =>
      cases hfinite : x.isFinite <;> cases range <;>
        simp [coerce, Number.checkFinite, hfinite, not_escapes_real, Value.isWritable_real]
  | _ => cases range <;> simp [coerce, escapes_flag, escapes_other]

end Field

namespace Layer

theorem update_refused (layer : Layer) (key : Text) (value : Value) :
    RefusedUnless (layer.kind.Escapes key value) (layer.update key value) := by
  rw [update]
  cases hfield : layer.kind.field? key with
  | none => simp [Kind.Escapes, hfield]
  | some field =>
    have hcoerce := field.coerce_refused value (some layer.id)
    cases hheld : field.coerce value (some layer.id) <;>
      simpa [hheld, Kind.Escapes, hfield, RefusedUnless] using hcoerce

theorem kind_update {layer updated : Layer} {key : Text} {value : Value}
    (h : layer.update key value = .ok updated) : updated.kind = layer.kind := by
  obtain ⟨field, -, -, held, -, rfl⟩ := update_eq_ok h
  rfl

end Layer

/-! ### Updates of a model -/

namespace Model

theorem updateFirst_refused {change : Layer → Except Fault Layer} {escapes : Layer → Fault → Prop}
    (hchange : ∀ layer, RefusedUnless (escapes layer) (change layer)) (id : Option Text)
    (layers : List Layer) :
    RefusedUnless
      (fun fault => ∃ layer, layers.find? (fun layer => decide (some layer.id = id)) = some layer ∧
        escapes layer fault)
      (updateFirst change id layers) := by
  induction layers with
  | nil => simp [updateFirst, noLayer]
  | cons layer rest ih =>
    rw [updateFirst]
    by_cases hid : some layer.id = id
    · have hfirst := hchange layer
      cases hchanged : change layer <;> simpa [hid, hchanged, RefusedUnless] using hfirst
    · cases hrest : updateFirst change id rest <;> simpa [hid, hrest, RefusedUnless] using ih

theorem update_refused (model : Model) (id : Option Text) (key : Text) (value : Value) :
    RefusedUnless
      (fun fault => ∃ layer, model.find? id = some layer ∧ layer.kind.Escapes key value fault)
      (model.update id key value) := by
  have hfirst := updateFirst_refused (fun layer => layer.update_refused key value) id model.layers
  cases hupdated : updateFirst (fun layer => layer.update key value) id model.layers <;>
    simpa [update, find?, hupdated, RefusedUnless, Except.map] using hfirst

end Model

/-! ### Payloads -/

theorem Kind.isWritable_of_ofValue? {value : Value} {kind : Kind}
    (h : Kind.ofValue? value = some kind) :
    value.isWritable = true := by
  cases value <;> simp [ofValue?, Value.named?] at h
  rfl

namespace Payload

/-- The faults that are met when the fields of a layer are set: an earlier member does not end the
reading, and a later one is not come to. -/
def MembersEscape (layer : Layer) (members : Members) (fault : Fault) : Prop :=
  ComesTo (fun before member => (∃ updated, updateAll layer before = .ok updated) ∧
    layer.kind.Escapes member.1 member.2 fault) members

/-- An entry whose id or type has to be written, and cannot be. -/
def Illegible (entry : Value) : Prop :=
  ∃ members : Members, entry = .obj members ∧
    ∃ key ∈ ["id", "type"], ∃ value ∈ members.get? (.ofString key), value.isWritable = false

/-- The faults that are met when the entry at a position is read: at its id or type, or in the
configuration for a new layer. -/
def EntryEscapes (model : Model) (position : Nat) (entry : Value) (ids : IdSource)
    (fault : Fault) : Prop :=
  (fault = .unwritable ∧ Illegible entry) ∨
    ∃ head members, readHead position entry = .ok head ∧ model.find? head.id = none ∧
      configMembers position (ids.settle head.id).1 (givenConfig head.members) = .ok members ∧
      MembersEscape (Layer.ofKind (ids.settle head.id).1 head.kind) members fault

/-- The faults that are met when entries are read, each after others that could be read. -/
def EntriesEscape (model : Model) (entries : List Value) (ids : IdSource) (fault : Fault) : Prop :=
  ComesTo (fun before entry => ∃ read drawn, readEntries model before ids = (.ok read, drawn) ∧
    EntryEscapes read (read.layers.length + 1) entry drawn fault) entries

theorem updateAll_refused (layer : Layer) (members : Members) :
    RefusedUnless (MembersEscape layer members) (updateAll layer members) := by
  unfold MembersEscape
  induction members generalizing layer with
  | nil => simp [updateAll]
  | cons member rest ih =>
    obtain ⟨key, value⟩ := member
    have hmember := layer.update_refused key value
    simp only [updateAll, comesTo_cons]
    cases hfield : layer.kind.field? key with
    | none => simpa [updateAll, hfield, Kind.Escapes] using ih layer
    | some field =>
      cases hupdated : layer.update key value with
      -- The reading ends here, so that it does not come to any later member.
      | error fault => simpa [updateAll, hfield, hupdated, RefusedUnless] using hmember
      | ok updated =>
        have hnone : ∀ fault, ¬ layer.kind.Escapes key value fault := by
          simpa [hupdated] using hmember
        simpa [updateAll, hfield, hupdated, hnone, Layer.kind_update hupdated] using ih updated

theorem configMembers_refused (position : Nat) (layerId : Text) (config : Value) :
    RefusedUnless (fun _ => False) (configMembers position layerId config) := by
  unfold configMembers
  split
  · split <;> simp
  · simp

theorem givenId_eq_error_iff {members : Members} {fault : Fault} :
    givenId members = .error fault ↔
      fault = .unwritable ∧ ∃ value ∈ members.get? "id", value.isWritable = false := by
  unfold givenId
  split
  next h => simp [h]
  next h => simp [h, Value.isWritable, Value.all, Value.hasNumeral]
  next value _ h =>
    cases hwritable : value.isWritable <;> simp [h, Value.plain, hwritable, Except.map,
        @eq_comm Fault fault]

theorem illegible_obj {members : Members} :
    Illegible (.obj members) ↔ (∃ value ∈ members.get? "id", value.isWritable = false) ∨
      (givenType members).isWritable = false := by
  have htype : (givenType members).isWritable = false ↔
      ∃ value ∈ members.get? "type", value.isWritable = false := by
    cases hget : members.get? "type" <;>
      simp [givenType, hget, Value.isWritable, Value.all, Value.hasNumeral]
  simp [Illegible, htype]

theorem readHead_refused (position : Nat) (entry : Value) :
    RefusedUnless (fun fault => fault = .unwritable ∧ Illegible entry)
      (readHead position entry) := by
  cases entry with
  | obj members =>
    simp only [readHead, illegible_obj]
    cases hgiven : givenId members with
    | error fault =>
      obtain ⟨rfl, hid⟩ := givenId_eq_error_iff.mp hgiven
      simp only [hid, true_or, and_true, refusedUnless_unwritable, implies_true]
    | ok id =>
      have hid : ¬ ∃ value ∈ Entries.get? members "id", value.isWritable = false := fun h => by
        simp [givenId_eq_error_iff.mpr ⟨rfl, h⟩] at hgiven
      simp only [hid, false_or]
      cases hkind : Kind.ofValue? (givenType members) with
      | none => simp
      | some kind => simp [Kind.isWritable_of_ofValue? hkind]
  | _ => simp [readHead, Illegible]

theorem readLayer_refused (position : Nat) (head : Head) (id : Text) :
    RefusedUnless
      (fun fault => ∃ members,
        configMembers position id (givenConfig head.members) = .ok members ∧
        MembersEscape (Layer.ofKind id head.kind) members fault)
      (readLayer position head id) := by
  have hconfig := configMembers_refused position id (givenConfig head.members)
  rw [readLayer]
  cases hmembers : configMembers position id (givenConfig head.members) with
  | error fault => simpa [hmembers, RefusedUnless] using hconfig
  | ok members => simpa using updateAll_refused (Layer.ofKind id head.kind) members

theorem readEntry_refused (model : Model) (position : Nat) (entry : Value) (ids : IdSource) :
    RefusedUnless (EntryEscapes model position entry ids)
      (readEntry model position entry ids).1 := by
  have hhead := readHead_refused position entry
  unfold EntryEscapes
  rw [readEntry]
  cases hread : readHead position entry with
  | error fault => simpa [hread, RefusedUnless] using hhead
  | ok head =>
    have hlegible : ¬ Illegible entry := by simpa [hread] using hhead
    cases hfind : model.find? head.id with
    | some other =>
      -- Only an id that is given is found.
      obtain ⟨id, hid⟩ : ∃ id, head.id = some id := by
        have hsame := List.find?_some hfind
        exact ⟨other.id, (of_decide_eq_true hsame).symm⟩
      rw [hid] at hfind
      simp [hid, hfind, hlegible]
    | none => simpa [hfind, hlegible] using readLayer_refused position head (ids.settle head.id).1

theorem readEntries_refused (model : Model) (entries : List Value) (ids : IdSource) :
    RefusedUnless (EntriesEscape model entries ids) (readEntries model entries ids).1 := by
  unfold EntriesEscape
  induction entries generalizing model ids with
  | nil => simp [readEntries]
  | cons entry rest ih =>
    have hentry := readEntry_refused model (model.layers.length + 1) entry ids
    simp only [readEntries, comesTo_cons]
    cases hread : readEntry model (model.layers.length + 1) entry ids with
    | mk result drawn =>
      cases result with
      | error fault => simpa [readEntries, hread, RefusedUnless] using hentry
      | ok layer =>
        have hnone : ∀ fault, ¬ EntryEscapes model (model.layers.length + 1) entry ids fault := by
          simpa [hread] using hentry
        simpa [readEntries, hread, hnone] using ih ⟨model.layers ++ [layer]⟩ drawn

/-- The faults, other than refusals, that are met when a payload is read. -/
def Escapes (payload : Value) (ids : IdSource) (fault : Fault) : Prop :=
  ∃ entries, payload = .list entries ∧ EntriesEscape .empty entries ids fault

end Payload

/-! ### What escapes -/

theorem Field.Escapes.fault_eq {field : Field} {value : Value} {fault : Fault}
    (h : field.Escapes value fault) :
    fault = .wholeTooLarge ∨ fault = .unwritable ∧ value.isWritable = false := by
  cases h with
  | tooLarge => exact .inl rfl
  | unwritable _ unwritable => exact .inr ⟨rfl, unwritable⟩

theorem Kind.Escapes.fault_eq {kind : Kind} {key : Text} {value : Value} {fault : Fault}
    (h : kind.Escapes key value fault) :
    fault = .wholeTooLarge ∨ fault = .unwritable ∧ value.isWritable = false := by
  obtain ⟨field, -, hfield⟩ := h
  exact hfield.fault_eq

namespace Payload

theorem readHead_members {position : Nat} {entry : Value} {head : Head}
    (h : readHead position entry = .ok head) : entry = .obj head.members := by
  unfold readHead at h
  split at h
  · split at h <;> simp at h
    rw [← h]
  · simp at h

theorem isWritable_of_get? {members : Members} {key : Text} {value : Value}
    (h : members.get? key = some value) (hunwritable : value.isWritable = false) :
    (Value.obj members).isWritable = false := by
  rw [Value.isWritable_obj, List.all_eq_false]
  exact ⟨_, Entries.mem_of_get? h, by simp [hunwritable]⟩

/-- A configuration with a member that cannot be written is that of an entry that cannot. -/
theorem isWritable_of_configMembers {position : Nat} {id : Text} {members config : Members}
    (h : configMembers position id (givenConfig members) = .ok config)
    {member : Text × Value} (hmember : member ∈ config)
    (hunwritable : member.2.isWritable = false) :
    (Value.obj members).isWritable = false := by
  have hgiven : givenConfig members = .obj config := by
    unfold configMembers at h
    split at h
    · split at h <;> simp_all
    · simp_all
  have hobj : (Value.obj config).isWritable = false := by
    rw [Value.isWritable_obj, List.all_eq_false]
    exact ⟨member, hmember, by simp [hunwritable]⟩
  unfold givenConfig at hgiven
  split at hgiven
  next hconfig => exact isWritable_of_get? hconfig (hgiven ▸ hobj)
  · cases hparams : members.get? "params" <;> simp [hparams] at hgiven
    exact isWritable_of_get? hparams (hgiven ▸ hobj)

theorem Escapes.fault_eq {payload : Value} {ids : IdSource} {fault : Fault}
    (h : Escapes payload ids fault) :
    fault = .wholeTooLarge ∨ fault = .unwritable ∧ payload.isWritable = false := by
  obtain ⟨entries, rfl, before, entry, after, rfl, read, drawn, -, hentry⟩ := h
  have hlist (hunwritable : entry.isWritable = false) :
      (Value.list (before ++ entry :: after)).isWritable = false := by
    simp [Value.isWritable_list, hunwritable]
  rcases hentry with ⟨rfl, members, rfl, key, -, value, hvalue, hunwritable⟩ |
    ⟨head, config, hhead, -, hconfig, first, member, last, rfl, -, hescapes⟩
  · exact .inr ⟨rfl, hlist (isWritable_of_get? hvalue hunwritable)⟩
  · obtain rfl := readHead_members hhead
    refine hescapes.fault_eq.imp_right fun ⟨hfault, hunwritable⟩ => ⟨hfault, hlist ?_⟩
    exact isWritable_of_configMembers hconfig (by simp) hunwritable

end Payload

theorem Model.ofPayload_refused (payload : Value) (ids : IdSource) :
    RefusedUnless (Payload.Escapes payload ids) (ofPayload payload ids).1 := by
  unfold Payload.Escapes
  cases payload with
  | list entries => simpa [ofPayload] using Payload.readEntries_refused .empty entries ids
  | _ => simp [ofPayload]

namespace Service

/-! ### Requests -/

/-- A result that fails its request, as a fault does that is not reported. -/
def Fails {α : Type} (result : Except Fault α) : Prop :=
  ∃ fault, result = .error fault ∧ fault.status? = none

@[simp] theorem not_fails_ok {α : Type} {a : α} : ¬ Fails (.ok a : Except Fault α) := by
  simp [Fails]

@[simp] theorem fails_error {α : Type} {fault : Fault} :
    Fails (.error fault : Except Fault α) ↔ fault.status? = none := by
  simp [Fails]

@[simp] theorem fails_map {α β : Type} {f : α → β} {result : Except Fault α} :
    Fails (result.map f) ↔ Fails result := by
  cases result <;> simp [Except.map]

theorem ofResult_eq_bare {result : Except Fault Response}
    (h : ∀ response, result = .ok response → response ≠ .bare 500) :
    Response.ofResult result = .bare 500 ↔ Fails result := by
  cases result with
  | ok response => simpa [Response.ofResult] using h
  | error fault =>
    cases hstatus : fault.status? <;> simp [Response.ofResult, Response.report, hstatus]

theorem ofResult_map_eq_bare {α : Type} {result : Except Fault α} {respond : α → Response}
    (h : ∀ a, respond a ≠ .bare 500) :
    Response.ofResult (result.map respond) = .bare 500 ↔ Fails result := by
  rw [ofResult_eq_bare, fails_map]
  intro response hresponse
  obtain ⟨a, -, rfl⟩ := map_eq_ok.mp hresponse
  exact h a

theorem json?_eq_error {request : Request} {fault : Fault} (h : request.json? = .error fault) :
    fault = .bodyTooDeep := by
  unfold Request.json? at h
  split at h <;> simp at h
  exact h.symm

theorem fails_payload {request : Request} :
    Fails (payload request) ↔ request.json? = .error .bodyTooDeep := by
  unfold payload
  cases hjson : request.json? with
  | error fault =>
    obtain rfl := json?_eq_error hjson
    simp [Fault.status?]
  | ok value =>
    cases value with
    | none => simp [Fault.status?]
    | some value => cases value <;> simp [Fault.status?]

/-- What is posted is the value of a JSON text. -/
theorem isJson_of_json? {request : Request} {value : Value}
    (h : request.json? = .ok (some value)) : value.isJson = true := by
  unfold Request.json? at h
  split at h <;> simp at h
  next valid _ => exact h ▸ valid

theorem isJson_of_payload {request : Request} {data : Members} (h : payload request = .ok data) :
    (Value.obj data).isJson = true := by
  refine isJson_of_json? (?_ : request.json? = .ok (some (.obj data)))
  unfold payload at h
  split at h <;> simp_all

end Service

theorem RefusedUnless.fails_iff {α : Type} {escapes : Fault → Prop} {result : Except Fault α}
    (h : RefusedUnless escapes result) (honly : ∀ fault, escapes fault → fault = .wholeTooLarge) :
    Service.Fails result ↔ escapes .wholeTooLarge := by
  constructor
  · rintro ⟨fault, hresult, hstatus⟩
    have hrefusal : fault.isRefusal = false := by
      cases fault <;> simp_all [Fault.status?, Fault.isRefusal]
    have hescapes := (h fault).mp ⟨hresult, hrefusal⟩
    exact honly fault hescapes ▸ hescapes
  · intro hescapes
    exact ⟨_, ((h _).mpr hescapes).1, rfl⟩

namespace Service

/-- The layers that a body posts; a body without any posts an empty list. -/
def postedLayers (data : Members) : Value := (data.get? "layers").getD (.list [])

theorem isWritable_postedLayers {request : Request} {data : Members}
    (h : payload request = .ok data) : (postedLayers data).isWritable = true := by
  have hdata := Value.isWritable_of_isJson (isJson_of_payload h)
  cases hlayers : data.get? "layers" with
  | none => simp [postedLayers, hlayers, Value.isWritable_list]
  | some value =>
    rw [postedLayers, hlayers, Option.getD_some, ← Bool.not_eq_false]
    intro hunwritable
    simp [Payload.isWritable_of_get? hlayers hunwritable] at hdata

/-- No body posts a number that cannot be written, so that one that is too large is all that its
layers fail for. -/
theorem fails_readModel {request : Request} {data : Members} (h : payload request = .ok data)
    (ids : IdSource) :
    Fails (readModel data ids).1 ↔ Payload.Escapes (postedLayers data) ids .wholeTooLarge := by
  refine (Model.ofPayload_refused (postedLayers data) ids).fails_iff fun fault hfault => ?_
  have hwritable := isWritable_postedLayers h
  simpa [hwritable] using hfault.fault_eq

theorem readModel_configured {data : Members} {ids after : IdSource} {model : Model}
    (h : readModel data ids = (.ok model, after)) : model.Configured := by
  unfold readModel Model.ofPayload at h
  split at h
  · exact Payload.readEntries_configured Model.configured_empty h
  · simp at h

theorem fails_groupsAnswer {request : Request} {visit : Visit} :
    Fails (groupsAnswer request visit).1 ↔ request.json? = .error .bodyTooDeep ∨
      ∃ data, payload request = .ok data ∧
        Payload.Escapes (postedLayers data) visit.ids .wholeTooLarge := by
  have hbody : Fails (payload request) ↔ _ := fails_payload
  rw [groupsAnswer]
  cases hpayload : payload request with
  | error fault => simpa [hpayload] using hbody
  | ok data =>
    have hmodel := fails_readModel hpayload visit.ids
    have hdeep : request.json? ≠ .error .bodyTooDeep := by simpa [hpayload] using hbody
    cases hread : readModel data visit.ids with
    | mk result ids =>
      rw [hread] at hmodel
      cases result with
      | error fault => simpa [hdeep, hread] using hmodel
      | ok model =>
        obtain ⟨units, hunits, -⟩ := NamedGroup.ofLayers_ok model.layers
        simpa [hdeep, hread, hunits, pure, Except.pure, bind, Except.bind] using hmodel

theorem setting_framework_ok (defaults : Defaults) (request : Request) (visit : Visit) :
    ∃ value, setting defaults request visit .framework = .ok value := by
  have hstored : ∃ stored?, UserSetting.framework.stored? visit.session = .ok stored? := by
    unfold UserSetting.stored?
    split <;> exact ⟨_, rfl⟩
  obtain ⟨stored?, hstored⟩ := hstored
  exact ⟨_, by rw [setting, UserSetting.read, hstored]; rfl⟩

theorem not_fails_readOption {data : Members} {key : String} {fallback : Except Fault Value}
    (h : ¬ Fails fallback) : ¬ Fails (readOption data key fallback) := by
  unfold readOption
  split
  · exact h
  · exact h
  · split
    · exact h
    · simp
  · simp [Fault.status?]

/-- An unknown framework is reported, if it can be written. -/
theorem fails_program {layers : List Layer} (h : ∀ layer ∈ layers, layer.Configured)
    (framework : Value) :
    Fails (Program.ofLayers framework layers) ↔ framework.isWritable = false := by
  by_cases hname : ∀ known : Framework, framework ≠ .str known.name
  · rw [Program.ofLayers_of_ne hname, fails_error]
    cases hwritable : framework.isWritable with
    | true => simp [Fault.showing_eq hwritable, Fault.status?]
    | false => simp [Fault.showing_eq_unwritable hwritable, Fault.status?]
  · obtain ⟨known, rfl⟩ : ∃ known : Framework, framework = .str known.name := by simpa using hname
    obtain ⟨source, hsource⟩ := Program.ofLayers_ok h known
    simp [hsource, Value.isWritable, Value.all, Value.hasNumeral]

/-- The checks of an export, one after the other, and what is made of the program at their end. -/
def exporting (answer : Value → Program → Response) (defaults : Defaults) (request : Request)
    (visit : Visit) : Drawn Response :=
  match payload request with
  | .error fault => (.error fault, visit.ids)
  | .ok data =>
    match readOption data "framework" (setting defaults request visit .framework) with
    | .error fault => (.error fault, visit.ids)
    | .ok framework =>
      match readModel data visit.ids with
      | (.error fault, ids) => (.error fault, ids)
      | (.ok model, ids) =>
        ((Program.ofLayers framework model.layers).map fun program => answer framework program, ids)

theorem codeAnswer_eq : codeAnswer = exporting fun framework program =>
    .json 200 (.obj [
      ("success", .bool true),
      ("framework", framework),
      ("filename", .str program.framework.filename),
      ("code", .str program.source)]) := rfl

theorem downloadAnswer_eq : downloadAnswer = exporting fun _ program =>
    .text "text/plain" program.source
      (some ("attachment; filename=" ++ program.framework.filename)) := rfl

/-- An export that is asked for fails for a body that is nested too deep, for layers that are too
large, and after layers that are read for a framework that is configured and cannot be written; any
other unknown framework and a wrong body are reported. -/
theorem fails_exporting {answer : Value → Program → Response} {defaults : Defaults}
    {request : Request} {visit : Visit} :
    Fails (exporting answer defaults request visit).1 ↔ request.json? = .error .bodyTooDeep ∨
      ∃ data framework, payload request = .ok data ∧
        readOption data "framework" (setting defaults request visit .framework) = .ok framework ∧
        (Payload.Escapes (postedLayers data) visit.ids .wholeTooLarge ∨
          framework.isWritable = false ∧ ∃ model, (readModel data visit.ids).1 = .ok model) := by
  have hbody : Fails (payload request) ↔ _ := fails_payload
  obtain ⟨value, hsetting⟩ := setting_framework_ok defaults request visit
  rw [exporting, hsetting]
  cases hpayload : payload request with
  | error fault => simpa [hpayload] using hbody
  | ok data =>
    have hdeep : request.json? ≠ .error .bodyTooDeep := by simpa [hpayload] using hbody
    have hoption : ¬ Fails (readOption data "framework" (.ok value)) :=
      not_fails_readOption not_fails_ok
    cases hframework : readOption data "framework" (.ok value) with
    | error fault => simpa [hdeep, hframework] using hoption
    | ok framework =>
      have hmodel := fails_readModel hpayload visit.ids
      cases hread : readModel data visit.ids with
      | mk result ids =>
        rw [hread] at hmodel
        cases result with
        | error fault => simpa [hdeep, hread, hframework] using hmodel
        | ok model =>
          have hprogram := fails_program (readModel_configured hread) framework
          have hnone : ¬ Payload.Escapes (postedLayers data) visit.ids .wholeTooLarge := by
            simpa using hmodel
          simp [hdeep, hread, hframework, hprogram, hnone]

theorem exporting_failed_iff {answer : Value → Program → Response}
    (h : ∀ framework program, answer framework program ≠ .bare 500) {defaults : Defaults}
    {request : Request} {visit : Visit} :
    Response.ofResult (exporting answer defaults request visit).1 = .bare 500 ↔
      Fails (exporting answer defaults request visit).1 := by
  refine ofResult_eq_bare fun response hresponse => ?_
  unfold exporting at hresponse
  split at hresponse
  · simp at hresponse
  · split at hresponse
    · simp at hresponse
    · split at hresponse
      · simp at hresponse
      · obtain ⟨program, -, rfl⟩ := map_eq_ok.mp hresponse
        exact h _ _

theorem groupsAnswer_ne_bare {request : Request} {visit : Visit} {response : Response}
    (h : (groupsAnswer request visit).1 = .ok response) : response ≠ .bare 500 := by
  unfold groupsAnswer at h
  split at h
  · simp at h
  · split at h
    · simp at h
    · obtain ⟨units, -, rfl⟩ : ∃ units : List NamedGroup, _ ∧ _ = response := by simpa using h
      simp

end Service

/-- Layers from outside are read or refused, and so is an update of one of them, unless a field is
given a whole number that is too large, or a whole number that cannot be written would be shown:
these are faults of their own.  A request for the groups or the program of posted layers fails for
the first of them and for a body that is nested too deep only; one for a program fails also if a
framework is configured that cannot be written. -/
theorem layers_refused_unless_escaping (payload : Value) (ids : IdSource) (model : Model)
    (id : Option Text) (key : Text) (value : Value) (defaults : Service.Defaults)
    (request : Service.Request) (visit : Service.Visit) :
    RefusedUnless (Payload.Escapes payload ids) (Model.ofPayload payload ids).1 ∧
    RefusedUnless
      (fun fault => ∃ layer, model.find? id = some layer ∧ layer.kind.Escapes key value fault)
      (model.update id key value) ∧
    (∀ fault, Payload.Escapes payload ids fault →
      fault = .wholeTooLarge ∨ fault = .unwritable ∧ payload.isWritable = false) ∧
    (∀ kind fault, Kind.Escapes kind key value fault →
      fault = .wholeTooLarge ∨ fault = .unwritable ∧ value.isWritable = false) ∧
    (Service.Response.ofResult (Service.groupsAnswer request visit).1 = .bare 500 ↔
      request.json? = .error .bodyTooDeep ∨ ∃ data, Service.payload request = .ok data ∧
        Payload.Escapes (Service.postedLayers data) visit.ids .wholeTooLarge) ∧
    (Service.Response.ofResult (Service.codeAnswer defaults request visit).1 = .bare 500 ↔
      request.json? = .error .bodyTooDeep ∨ ∃ data framework,
        Service.payload request = .ok data ∧
        Service.readOption data "framework"
          (Service.setting defaults request visit .framework) = .ok framework ∧
        (Payload.Escapes (Service.postedLayers data) visit.ids .wholeTooLarge ∨
          framework.isWritable = false ∧
            ∃ model, (Service.readModel data visit.ids).1 = .ok model)) ∧
    (Service.Response.ofResult (Service.downloadAnswer defaults request visit).1 = .bare 500 ↔
      Service.Response.ofResult (Service.codeAnswer defaults request visit).1 = .bare 500) := by
  refine ⟨Model.ofPayload_refused payload ids, model.update_refused id key value,
    fun _ => Payload.Escapes.fault_eq, fun _ _ => Kind.Escapes.fault_eq, ?_, ?_, ?_⟩
  · rw [Service.ofResult_eq_bare fun _ => Service.groupsAnswer_ne_bare, Service.fails_groupsAnswer]
  · rw [Service.codeAnswer_eq, Service.exporting_failed_iff (by simp), Service.fails_exporting]
  · rw [Service.codeAnswer_eq, Service.downloadAnswer_eq, Service.exporting_failed_iff (by simp),
      Service.exporting_failed_iff (by simp), Service.fails_exporting, Service.fails_exporting]

/-- A payload with a number of 310 digits for a width. -/
def vastPayload : Value :=
  .list [.obj [("type", .str "linear"), ("config", .obj [("input_dim", .int (10 ^ 309))])]]

theorem not_always_refused : ¬ ∀ payload ids,
    (∃ model, (Model.ofPayload payload ids).1 = .ok model) ∨
      ∃ why id, (Model.ofPayload payload ids).1 = .error (.refused why id) := by
  intro h
  have hlarge : (Model.ofPayload vastPayload .counting).1 = .error .wholeTooLarge := by
    have hmembers : Payload.MembersEscape (Layer.ofKind "1" .linear)
        [("input_dim", .int (10 ^ 309))] .wholeTooLarge :=
      ⟨[], _, [], rfl, ⟨_, rfl⟩, _, rfl, .tooLarge (by decide) (by decide +kernel)⟩
    have hentry : Payload.EntryEscapes .empty 1 (.obj [("type", .str "linear"),
        ("config", .obj [("input_dim", .int (10 ^ 309))])]) .counting .wholeTooLarge :=
      .inr ⟨⟨_, none, .linear⟩, _, rfl, rfl, rfl, hmembers⟩
    have hpayload : Payload.Escapes vastPayload .counting .wholeTooLarge :=
      ⟨_, rfl, [], _, [], rfl, _, _, rfl, hentry⟩
    exact ((Model.ofPayload_refused _ _ _).mpr hpayload).1
  rcases h vastPayload .counting with ⟨model, hmodel⟩ | ⟨why, id, hrefused⟩
  · simp [hlarge] at hmodel
  · simp [hlarge] at hrefused

end LayerStack
