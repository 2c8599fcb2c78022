import LayerStack.Layer.Count
import LayerStack.Proofs.Configured

/-! The values of the fields of a configuration, by the sort of their ranges.  Reading a field gives
its value, and the values of a configured layer make up its whole configuration. -/

namespace LayerStack

namespace Config

/-- The whole number that a key holds, or zero. -/
def whole (config : Config) (key : String) : Int :=
  match config.get? key with
  | some (.num (.int n)) => n
  | _ => 0

/-- The number that a key holds, or zero. -/
def number (config : Config) (key : String) : Number :=
  match config.get? key with
  | some (.num x) => x
  | _ => .int 0

/-- Whether a key holds a flag that is on. -/
def flag (config : Config) (key : String) : Bool :=
  match config.get? key with
  | some (.bool b) => b
  | _ => false

end Config

/-- What a key holds, as a value of the sort of a range. -/
def FieldRange.valueIn (range : FieldRange) (config : Config) (key : String) : Value :=
  match range with
  | .whole _ => .int (config.whole key)
  | .real .. => .num (config.number key)
  | .flag => .bool (config.flag key)

/-- Whether a value is of the sort that a range asks for: a whole number of one at least, a number,
or a flag.  How large a number is does not matter. -/
def FieldRange.admits : FieldRange → Value → Bool
  | .whole _, .num (.int n) => decide (1 ≤ n)
  | .real .., .num _ => true
  | .flag, .bool _ => true
  | _, _ => false

def FieldRange.isWhole : FieldRange → Bool
  | .whole _ => true
  | _ => false

namespace FieldRange

variable {range : FieldRange} {v : Value}

theorem valueIn_of_admits (h : range.admits v = true) {config : Config} {key : String}
    (hget : config.get? key = some v) : range.valueIn config key = v := by
  cases range with
  | whole =>
    rcases v with _ | _ | (n | _) | _ | _ | _ <;>
      simp_all [admits, valueIn, Config.whole, Value.int]
  | real => cases v <;> simp_all [admits, valueIn, Config.number]
  | flag => cases v <;> simp_all [admits, valueIn, Config.flag]

theorem Holds.admits (h : range.Holds v) : range.admits v = true := by
  cases h with
  | whole positive => simpa [FieldRange.admits] using positive
  | real | flag => rfl

theorem Holds.valueIn_eq (h : range.Holds v) {config : Config} {key : String}
    (hget : config.get? key = some v) : range.valueIn config key = v :=
  valueIn_of_admits h.admits hget

end FieldRange

namespace Config

/-- A configuration in which every field of a kind holds a value of the sort of its range. -/
def Complete (config : Config) (kind : Kind) : Prop :=
  ∀ field ∈ kind.fields, (config.get? field.key).any field.range.admits = true

instance (config : Config) (kind : Kind) : Decidable (config.Complete kind) :=
  inferInstanceAs (Decidable (∀ field ∈ kind.fields, _))

namespace Complete

variable {config : Config} {kind : Kind}

theorem get?_eq (h : config.Complete kind) {field : Field} (hfield : field ∈ kind.fields) :
    config.get? field.key = some (field.range.valueIn config field.key) ∧
      field.range.admits (field.range.valueIn config field.key) = true := by
  obtain ⟨v, hget, hadmits⟩ := (Option.any_eq_true _ _).mp (h field hfield)
  rw [FieldRange.valueIn_of_admits hadmits hget]
  exact ⟨hget, hadmits⟩

theorem read_eq (h : config.Complete kind) : ∀ field ∈ kind.fields,
    config.read field.key = .ok (field.range.valueIn config field.key) := by
  intro field hfield
  rw [read, (h.get?_eq hfield).1]

theorem one_le_whole (h : config.Complete kind) : ∀ field ∈ kind.fields,
    field.range.isWhole = true → 1 ≤ config.whole field.key := by
  intro field hfield hwhole
  have hadmits := (h.get?_eq hfield).2
  cases hrange : field.range <;> simp [hrange, FieldRange.isWhole] at hwhole
  simpa [hrange, FieldRange.valueIn, FieldRange.admits, Value.int] using hadmits

end Complete

theorem readIf_bool {config : Config} {key : String} {b : Bool} (n : Int)
    (h : config.read key = .ok (.bool b)) :
    config.readIf key (.ok (.int n)) = .ok (.int (if b then n else 0)) := by
  rw [readIf, readFlag, h]
  cases b <;> rfl

end Config

theorem Kind.fields_of_isRecurrent {kind : Kind} (h : kind.isRecurrent = true) :
    kind.fields = recurrentFields := by
  cases kind <;> simp [isRecurrent] at h <;> rfl

theorem Entries.eq_map_keys {entries : Entries String Value} (h : entries.keys.Nodup) :
    entries = entries.keys.map fun key => (key, (entries.get? key).getD .null) := by
  rw [keys, List.map_map]
  refine (List.map_id entries).symm.trans (List.map_congr_left fun entry hentry => ?_)
  simp [get?_of_mem h hentry]

namespace Layer.Configured

variable {layer : Layer}

theorem get?_eq (h : layer.Configured) {field : Field} (hfield : field ∈ layer.kind.fields) :
    layer.config.get? field.key = some (field.range.valueIn layer.config field.key) ∧
      field.range.Holds (field.range.valueIn layer.config field.key) := by
  obtain ⟨v, hget, hholds⟩ := h.holds field hfield
  rw [hholds.valueIn_eq hget]
  exact ⟨hget, hholds⟩

theorem complete (h : layer.Configured) : layer.config.Complete layer.kind := by
  intro field hfield
  obtain ⟨v, hget, hholds⟩ := h.holds field hfield
  rw [hget]
  exact hholds.admits

theorem read_eq (h : layer.Configured) : ∀ field ∈ layer.kind.fields,
    layer.config.read field.key = .ok (field.range.valueIn layer.config field.key) :=
  h.complete.read_eq

theorem holds_valueIn (h : layer.Configured) : ∀ field ∈ layer.kind.fields,
    field.range.Holds (field.range.valueIn layer.config field.key) :=
  fun _ hfield => (h.get?_eq hfield).2

theorem one_le_whole (h : layer.Configured) : ∀ field ∈ layer.kind.fields,
    ∀ choices, field.range = .whole choices → 1 ≤ layer.config.whole field.key :=
  fun field hfield _ hrange => h.complete.one_le_whole field hfield (hrange ▸ rfl)

/-- A configured layer holds the values of its fields and nothing else. -/
theorem config_eq (h : layer.Configured) : layer.config =
    ⟨layer.kind.fields.map fun field =>
      (field.key, field.range.valueIn layer.config field.key)⟩ := by
  have hnodup : layer.config.keys.Nodup := h.keys ▸ layer.kind.nodup_keys
  have hentries := Entries.eq_map_keys hnodup
  have hkeys : layer.config.entries.keys = layer.kind.fields.map Field.key := h.keys
  rw [hkeys, List.map_map] at hentries
  refine congrArg Config.mk (hentries.trans (List.map_congr_left fun field hfield => ?_))
  simp only [Function.comp_apply, Prod.mk.injEq, true_and]
  exact congrArg (Option.getD · .null) (h.get?_eq hfield).1

end Layer.Configured

end LayerStack
