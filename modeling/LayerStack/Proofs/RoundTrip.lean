import LayerStack.Proofs.Session

/-! A model that is sent as a payload and read again is the same model, and no id is drawn for it:
every check of the reader lets through what a session can have stored. -/

namespace LayerStack

namespace Payload

def configPairs (config : Config) : Members :=
  config.entries.map fun entry => (.ofString entry.1, entry.2)

theorem updateAll_of_holds (layer : Layer) {entries : Entries String Value}
    (h : ∀ entry ∈ entries, ∃ field ∈ layer.kind.fields,
      field.key = entry.1 ∧ field.range.Holds entry.2) :
    updateAll layer (configPairs ⟨entries⟩) =
      .ok { layer with config := ⟨entries.foldl (fun entries pair => entries.set pair.1 pair.2)
        layer.config.entries⟩ } := by
  induction entries generalizing layer with
  | nil => rfl
  | cons entry rest ih =>
    obtain ⟨key, value⟩ := entry
    obtain ⟨field, hfield, rfl, hholds⟩ := h _ List.mem_cons_self
    have hfind := Kind.field?_of_mem hfield
    have hupdate : layer.update (Text.ofString field.key) value =
        .ok { layer with config := layer.config.set field.key value } := by
      simp [Layer.update, hfind, Field.coerce_of_holds hholds]
    have hrest := ih { layer with config := layer.config.set field.key value }
      fun entry hentry => h entry (List.mem_cons_of_mem _ hentry)
    simp only [configPairs, List.map_cons] at hrest ⊢
    simp only [updateAll, hfind, Option.isSome_some, if_true, hupdate]
    exact hrest

theorem configMembers_toValue (position : Nat) (id : Text) (config : Config) :
    configMembers position id config.toValue = .ok (configPairs config) := by
  obtain ⟨entries⟩ := config
  cases entries <;> simp [configMembers, Config.toValue, Value.isGiven, configPairs]

/-- Reading a configured layer back from its own form: every field is set over its default. -/
theorem readLayer_toValue {layer : Layer} (h : layer.Configured) (position : Nat) (head : Head)
    (hkind : head.kind = layer.kind) (hconfig : givenConfig head.members = layer.config.toValue) :
    readLayer position head layer.id = .ok layer := by
  obtain ⟨id, kind, ⟨entries⟩⟩ := layer
  have hkeys : Entries.keys entries = kind.fields.map Field.key := h.keys
  have hbase : Entries.keys kind.defaultConfig.entries = Entries.keys entries :=
    (Layer.configured_ofKind id kind).keys.trans hkeys.symm
  have hnodup : (Entries.keys entries).Nodup := hkeys ▸ kind.nodup_keys
  have hset := Entries.foldl_set [] hbase hnodup
  have hupdate := updateAll_of_holds (Layer.ofKind id kind) fun entry hentry => h.entry hentry
  rw [readLayer, hconfig, configMembers_toValue, hkind]
  simp only [Layer.ofKind, List.nil_append] at hset hupdate ⊢
  rw [hupdate, hset]

/-- A layer that is new to the model is read back from its own form, with its own id. -/
theorem readEntry_toValue {model : Model} {layer : Layer} (h : layer.Configured)
    (hempty : layer.id.isEmpty = false) (hnew : layer.id ∉ model.ids) (position : Nat)
    (ids : IdSource) : readEntry model position layer.toValue ids = (.ok layer, ids) := by
  have hhead : readHead position layer.toValue =
      .ok ⟨[("id", .str layer.id), ("type", .str layer.kind.name),
        ("config", layer.config.toValue)], some layer.id, layer.kind⟩ := by
    simp [readHead, Layer.toValue, Entries.get?, Kind.ofValue?_name, givenId, givenType,
      Except.map]
  have hfind : model.find? (some layer.id) = none := Model.find?_eq_none.mpr hnew
  have hread := readLayer_toValue h position
    ⟨[("id", .str layer.id), ("type", .str layer.kind.name), ("config", layer.config.toValue)],
      some layer.id, layer.kind⟩ rfl (by simp [givenConfig, Entries.get?])
  simp [readEntry, hhead, hfind, IdSource.settle_some _ hempty, hread]

theorem readEntries_toValue (before after : List Layer)
    (hconfigured : Model.Configured ⟨after⟩) (hidentified : Model.Identified ⟨before ++ after⟩)
    (ids : IdSource) :
    readEntries ⟨before⟩ (after.map Layer.toValue) ids = (.ok ⟨before ++ after⟩, ids) := by
  -- The layers that are read already are the model that the next id has to be new to.
  induction after generalizing before with
  | nil => simp [readEntries]
  | cons layer rest ih =>
    have hlayer : layer.Configured := hconfigured layer List.mem_cons_self
    have hempty : layer.id.isEmpty = false :=
      hidentified.nonempty _ (List.mem_map_of_mem (by simp))
    have hnew : layer.id ∉ Model.ids ⟨before⟩ := by
      have hdistinct := hidentified.distinct
      simp only [Model.ids, List.map_append] at hdistinct
      intro hmem
      exact List.disjoint_of_nodup_append hdistinct hmem (by simp)
    have hshift : before ++ layer :: rest = (before ++ [layer]) ++ rest := by simp
    simp only [List.map_cons, readEntries, readEntry_toValue hlayer hempty hnew]
    rw [hshift] at hidentified ⊢
    exact ih _ (fun other hother => hconfigured other (List.mem_cons_of_mem _ hother)) hidentified

end Payload

theorem Model.ofPayload_toValue {model : Model} (hconfigured : model.Configured)
    (hidentified : model.Identified) (ids : IdSource) :
    Model.ofPayload model.toValue ids = (.ok model, ids) :=
  Payload.readEntries_toValue [] model.layers hconfigured hidentified ids

namespace Workspace

theorem run_load {payload : Value} {ids after : IdSource} {read : Model}
    (h : Model.ofPayload payload ids = (.ok read, after)) :
    ((start ids).run [.load payload]).model = read := by
  simp [run, apply, start, h]

/-- The model of a session is read back from its payload as it is, without an id being drawn; and
so the payload of what was read from any other payload stays the same from then on. -/
theorem payload_round_trip :
    (∀ ids edits, (start ids).FreshRun edits → ∀ source,
      Model.ofPayload ((start ids).run edits).model.toValue source =
        (.ok ((start ids).run edits).model, source)) ∧
    (∀ payload ids read after, (start ids).FreshStep (.load payload) →
      Model.ofPayload payload ids = (.ok read, after) → ∀ source,
      (Model.ofPayload read.toValue source).1.map Model.toValue = .ok read.toValue) := by
  have hsession : ∀ ids edits, (start ids).FreshRun edits → ∀ source,
      Model.ofPayload ((start ids).run edits).model.toValue source =
        (.ok ((start ids).run edits).model, source) := by
    intro ids edits hfresh source
    exact Model.ofPayload_toValue (run_configured Model.configured_empty edits)
      (run_identified Model.identified_empty hfresh) source
  refine ⟨hsession, fun payload ids read after hfresh hread source => ?_⟩
  have hagain := hsession ids [.load payload] ⟨hfresh, trivial⟩ source
  rw [run_load hread] at hagain
  rw [hagain, Except.map]

/-- A payload with the largest double in a whole field, a negative zero in a real one, and an id
that is a number. -/
def extremePayload : Value := .list [
  .obj [("type", .str "linear"), ("config", .obj [
    ("output_dim", .real (.finite false (2 ^ 1024 - 2 ^ 971) (by decide +kernel)))])],
  .obj [("type", .str "dropout"), ("id", .int 7), ("params", .obj [
    ("rate", .real (.signedZero true))])]]

theorem payload_round_trip_extremePayload :
    ((start .counting).FreshRun mixedSession ∧
      Model.ofPayload ((start .counting).run mixedSession).model.toValue .counting =
        (.ok ((start .counting).run mixedSession).model, .counting)) ∧
    (start .counting).FreshStep (.load extremePayload) ∧
      ∃ read after, Model.ofPayload extremePayload .counting = (.ok read, after) ∧
        (Model.ofPayload read.toValue .counting).1.map Model.toValue = .ok read.toValue := by
  have hsession : (start .counting).FreshRun mixedSession := by decide +kernel
  have hload : (start .counting).FreshStep (.load extremePayload) := by decide +kernel
  have hok : (Model.ofPayload extremePayload .counting).1.isOk := by decide +kernel
  refine ⟨⟨hsession, payload_round_trip.1 _ _ hsession _⟩, hload, ?_⟩
  cases hread : Model.ofPayload extremePayload .counting with
  | mk result after =>
    rw [hread] at hok
    cases result with
    | error fault => simp [Except.isOk, Except.toBool] at hok
    | ok read => exact ⟨read, after, rfl, payload_round_trip.2 _ _ _ _ hload hread _⟩

end Workspace

end LayerStack
