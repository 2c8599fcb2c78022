import LayerStack.Model.Basic
import LayerStack.Proofs.Entries
import LayerStack.Proofs.Overflow

/-! What the fields of a layer in a model hold: exactly the fields of its kind, each with a value
that its range allows.  A field that is given a value either refuses it or then holds such a value,
and a value that is held already stays as it is. -/

namespace LayerStack

/-- Whether the double nearest to a number is finite. -/
def Number.isFinite (x : Number) : Bool := x.toBinary64?.any Binary64.isFinite

/-- The values that a range allows. -/
inductive FieldRange.Holds : FieldRange → Value → Prop
  | whole {choices : List Int} {n : Int} (positive : 1 ≤ n)
      (finite : (Number.int n).isFinite = true) : Holds (.whole choices) (.num (.int n))
  | real {least most : Int} {step : Binary64} {x : Number} (finite : x.isFinite = true) :
      Holds (.real least most step) (.num x)
  | flag {b : Bool} : Holds .flag (.bool b)

/-- A layer whose configuration has exactly the fields of its kind, in their order, each with a
value that its range allows. -/
structure Layer.Configured (layer : Layer) : Prop where
  keys : layer.config.keys = layer.kind.fields.map Field.key
  holds : ∀ field ∈ layer.kind.fields,
    ∃ value, layer.config.get? field.key = some value ∧ field.range.Holds value

namespace Number

theorem isFinite_int (n : Int) : (int n).isFinite = (Binary64.ofInt? n).isSome := by
  simp only [isFinite, toBinary64?, Binary64.ofInt?]
  split <;> simp_all

theorem checkFinite_eq_ok_true {x : Number} : x.checkFinite = .ok true ↔ x.isFinite = true := by
  cases x with
  | int n =>
    rw [isFinite_int, checkFinite]
    split <;> simp_all
  | real x => simp [checkFinite, isFinite, toBinary64?]

/-- A whole number with a finite double near it has far fewer digits than a numeral may have. -/
theorem isWritable_of_isFinite {n : Int} (h : (int n).isFinite = true) :
    (Value.int n).isWritable = true := by
  rw [isFinite_int, Binary64.isSome_ofInt?_iff, Int.abs_eq_natAbs, Nat.cast_lt] at h
  have hbound : Binary64.overflow ≤ Decimal.numeralBound := by decide +kernel
  exact Value.isWritable_int.mpr (h.trans_le hbound)

theorem one_le_toCount (x : Number) : 1 ≤ x.toCount := le_max_left _ _

/-- Rounding a finite number down to a count leaves it finite. -/
theorem isFinite_toCount {x : Number} (h : x.isFinite = true) :
    (int x.toCount).isFinite = true := by
  rcases max_choice 1 x.floor with hone | hfloor
  · rw [toCount, hone]
    decide +kernel
  have hpos : 0 ≤ x.floor := by omega
  rw [toCount, hfloor]
  cases x with
  | int n => exact h
  | real x =>
    rw [isFinite_int]
    cases x with
    | infinite | nan => simp [isFinite, toBinary64?, Binary64.isFinite] at h
    | finite negative m hm =>
      have hfloor := Rat.floor_le (if negative then -m else m)
      refine Binary64.isSome_ofInt?_of_le hpos (hfloor.trans ?_) hm
      have hzero := hm.1
      split <;> linarith

end Number

namespace FieldRange

@[simp] theorem holds_whole {choices : List Int} {n : Int} :
    (whole choices).Holds (.int n) ↔ 1 ≤ n ∧ (Number.int n).isFinite = true :=
  ⟨fun | .whole positive finite => ⟨positive, finite⟩, fun h => .whole h.1 h.2⟩

@[simp] theorem holds_real {least most : Int} {step : Binary64} {x : Number} :
    (real least most step).Holds (.num x) ↔ x.isFinite = true :=
  ⟨fun | .real finite => finite, .real⟩

@[simp] theorem holds_flag {b : Bool} : flag.Holds (.bool b) := .flag

theorem Holds.isWritable {range : FieldRange} {v : Value} (h : range.Holds v) :
    v.isWritable = true := by
  cases h with
  | whole _ finite => exact Number.isWritable_of_isFinite finite
  | @real _ _ _ x finite =>
    cases x with
    | int n => exact Number.isWritable_of_isFinite finite
    | real x => rfl
  | flag => rfl

end FieldRange

namespace Field

theorem coerce_holds {field : Field} {value held : Value} {layerId : Option Text}
    (h : field.coerce value layerId = .ok held) : field.range.Holds held := by
  obtain ⟨key, range, initial⟩ := field
  cases range with
  | flag =>
    cases value <;> simp [coerce] at h
    subst h
    exact .flag
  | whole choices =>
    cases value <;> simp [coerce] at h
    next x =>
      split at h <;> simp at h
      next hfinite =>
        subst h
        exact .whole x.one_le_toCount
          (Number.isFinite_toCount (Number.checkFinite_eq_ok_true.mp hfinite))
  | real least most step =>
    cases value <;> simp [coerce] at h
    next x =>
      split at h <;> simp at h
      next hfinite =>
        subst h
        exact .real (Number.checkFinite_eq_ok_true.mp hfinite)

theorem coerce_of_holds {field : Field} {held : Value} (h : field.range.Holds held)
    (layerId : Option Text) : field.coerce held layerId = .ok held := by
  obtain ⟨key, range, initial⟩ := field
  cases h with
  | @whole choices n positive finite =>
    have hcount : (Number.int n).toCount = n := by simp [Number.toCount, Number.floor, positive]
    simp [coerce, Number.checkFinite_eq_ok_true.mpr finite, hcount, Value.int]
  | real finite => simp [coerce, Number.checkFinite_eq_ok_true.mpr finite]
  | flag => simp [coerce]

end Field

namespace Kind

theorem nodup_keys (kind : Kind) : (kind.fields.map Field.key).Nodup := by
  cases kind <;> decide

theorem keys_defaultConfig (kind : Kind) :
    kind.defaultConfig.keys = kind.fields.map Field.key := by
  simp [defaultConfig, Config.keys, Entries.keys, Function.comp_def]

theorem field?_eq_some {kind : Kind} {key : Text} {field : Field}
    (h : kind.field? key = some field) : field ∈ kind.fields ∧ Text.ofString field.key = key := by
  refine ⟨List.mem_of_find?_eq_some h, ?_⟩
  simpa using List.find?_some h

theorem eq_of_key_eq {kind : Kind} {a b : Field} (ha : a ∈ kind.fields) (hb : b ∈ kind.fields)
    (h : a.key = b.key) : a = b :=
  List.inj_on_of_nodup_map kind.nodup_keys ha hb h

theorem field?_of_mem {kind : Kind} {field : Field} (h : field ∈ kind.fields) :
    kind.field? (Text.ofString field.key) = some field := by
  have hsome : (kind.field? (Text.ofString field.key)).isSome := by
    rw [field?, List.find?_isSome]
    exact ⟨field, h, by simp⟩
  obtain ⟨other, hother⟩ := Option.isSome_iff_exists.mp hsome
  obtain ⟨hmem, hkey⟩ := field?_eq_some hother
  rw [hother, eq_of_key_eq hmem h (Text.ofString_inj.mp hkey)]

/-- Every default is allowed by the range of its own field. -/
theorem initial_holds {kind : Kind} : ∀ field ∈ kind.fields, field.range.Holds field.initial := by
  have htenth : (Number.real .tenth).isFinite = true := by decide +kernel
  have hwhole : ∀ n ∈ [(1 : Int), 2, 3, 8, 64, 128, 256, 512, 2048, 10000],
      (Number.int n).isFinite = true := by decide +kernel
  simp only [List.forall_mem_cons] at hwhole
  cases kind <;>
    simp [fields, attentionFields, recurrentFields, Field.whole, Field.flag, Field.rate,
      Value.real, htenth, hwhole]

end Kind

namespace Layer

theorem configured_ofKind (id : Text) (kind : Kind) : (ofKind id kind).Configured where
  keys := kind.keys_defaultConfig
  holds field h := by
    have hnodup : kind.defaultConfig.keys.Nodup := kind.keys_defaultConfig ▸ kind.nodup_keys
    have hmem : (field.key, field.initial) ∈ kind.defaultConfig.entries :=
      List.mem_map_of_mem (f := fun field => (field.key, field.initial)) h
    exact ⟨field.initial, Entries.get?_of_mem hnodup hmem, Kind.initial_holds field h⟩

/-- What a successful update does: it sets the field with the key to what the field makes of the
value. -/
theorem update_eq_ok {layer updated : Layer} {key : Text} {value : Value}
    (h : layer.update key value = .ok updated) :
    ∃ field ∈ layer.kind.fields, Text.ofString field.key = key ∧
      ∃ held, field.coerce value (some layer.id) = .ok held ∧
        updated = { layer with config := layer.config.set field.key held } := by
  rw [update] at h
  split at h
  · simp at h
  next field hfield =>
    obtain ⟨hmem, hkey⟩ := Kind.field?_eq_some hfield
    split at h <;> simp at h
    next held hheld => exact ⟨field, hmem, hkey, held, hheld, h.symm⟩

theorem Configured.set {layer : Layer} (h : layer.Configured) {field : Field}
    (hfield : field ∈ layer.kind.fields) {held : Value} (hheld : field.range.Holds held) :
    Configured { layer with config := layer.config.set field.key held } where
  keys := by
    have hmem : field.key ∈ layer.config.keys := h.keys ▸ List.mem_map_of_mem hfield
    exact (Entries.keys_set_of_mem _ _ hmem).trans h.keys
  holds other hother := by
    by_cases hkey : field.key = other.key
    · rw [← Kind.eq_of_key_eq hfield hother hkey]
      exact ⟨held, Entries.get?_set_self _ _ _, hheld⟩
    · obtain ⟨value, hget, hvalue⟩ := h.holds other hother
      exact ⟨value, (Entries.get?_set_of_ne _ _ hkey).trans hget, hvalue⟩

theorem Configured.update {layer updated : Layer} {key : Text} {value : Value}
    (h : layer.Configured) (hupdate : layer.update key value = .ok updated) :
    updated.Configured := by
  obtain ⟨field, hmem, -, held, hheld, rfl⟩ := update_eq_ok hupdate
  exact h.set hmem (Field.coerce_holds hheld)

/-- Every entry of a configured layer belongs to a field, which may hold the value. -/
theorem Configured.entry {layer : Layer} (h : layer.Configured) {key : String} {value : Value}
    (hentry : (key, value) ∈ layer.config.entries) :
    ∃ field ∈ layer.kind.fields, field.key = key ∧ field.range.Holds value := by
  have hkey : key ∈ layer.kind.fields.map Field.key := h.keys ▸ List.mem_map_of_mem hentry
  obtain ⟨field, hfield, rfl⟩ := List.mem_map.mp hkey
  obtain ⟨held, hget, hholds⟩ := h.holds field hfield
  have hnodup : layer.config.keys.Nodup := h.keys ▸ layer.kind.nodup_keys
  have hsame := Entries.get?_of_mem hnodup hentry
  rw [Config.get?, hsame, Option.some.injEq] at hget
  exact ⟨field, hfield, rfl, hget ▸ hholds⟩

end Layer

end LayerStack
