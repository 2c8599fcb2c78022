import LayerStack.Proofs.Configured
import LayerStack.Proofs.Overflow
import LayerStack.Proofs.Results

/-! What a field makes of a value that it is given: whether it takes the value at all, and what it
holds then.  Rounding down and raising to one keep the order of numbers, also of doubles among whole
numbers, and neither does anything a second time. -/

namespace LayerStack

namespace FieldRange

/-- The values that can be given to a field of a range: flags where it holds flags, and elsewhere
finite doubles and the whole numbers that have a finite double near them. -/
inductive Takes : FieldRange → Value → Prop
  | flag (b : Bool) : Takes .flag (.bool b)
  | int {range : FieldRange} (hrange : range ≠ .flag) {n : Int} (small : |n| < Binary64.overflow) :
      Takes range (.num (.int n))
  | real {range : FieldRange} (hrange : range ≠ .flag) {x : Binary64} (finite : x.isFinite = true) :
      Takes range (.num (.real x))

/-- What a range makes of a value: a whole number is rounded down and raised to one, and everything
else stays as it is. -/
def clamp : FieldRange → Value → Value
  | .whole _, .num x => .int (max 1 x.floor)
  | _, value => value

theorem takes_num {range : FieldRange} {x : Number} :
    range.Takes (.num x) ↔ range ≠ .flag ∧ x.isFinite = true := by
  constructor
  · intro h
    cases h with
    | int hrange small => exact ⟨hrange, by rwa [Number.isFinite_int, Binary64.isSome_ofInt?_iff]⟩
    | real hrange finite => exact ⟨hrange, by simpa [Number.isFinite, Number.toBinary64?]⟩
  · rintro ⟨hrange, hfinite⟩
    cases x with
    | int n =>
      rw [Number.isFinite_int, Binary64.isSome_ofInt?_iff] at hfinite
      exact .int hrange hfinite
    | real x => exact .real hrange (by simpa [Number.isFinite, Number.toBinary64?] using hfinite)

theorem takes_int {range : FieldRange} (h : range ≠ .flag) {n : Int} :
    range.Takes (.int n) ↔ |n| < Binary64.overflow := by
  rw [Value.int, takes_num, Number.isFinite_int, Binary64.isSome_ofInt?_iff]
  exact and_iff_right h

end FieldRange

/-- A field takes exactly the values of its range, and holds them clamped. -/
theorem Field.coerce_eq_ok_iff {field : Field} {value held : Value} {layerId : Option Text} :
    field.coerce value layerId = .ok held ↔
      field.range.Takes value ∧ held = field.range.clamp value := by
  obtain ⟨key, range, initial⟩ := field
  cases value with
  | num x =>
    rw [FieldRange.takes_num, ← Number.checkFinite_eq_ok_true]
    cases range with
    | flag => simp [coerce]
    | whole choices =>
      cases hfinite : x.checkFinite with
      | error fault => simp [coerce, hfinite]
      | ok finite => cases finite <;>
          simp [coerce, hfinite, FieldRange.clamp, Number.toCount, eq_comm]
    | real least most step =>
      cases hfinite : x.checkFinite with
      | error fault => simp [coerce, hfinite]
      | ok finite => cases finite <;> simp [coerce, hfinite, FieldRange.clamp, eq_comm]
  | bool b =>
    cases range with
    | flag => simp [coerce, FieldRange.clamp, FieldRange.Takes.flag b, eq_comm]
    | _ =>
      have hnot : ∀ {range : FieldRange}, range ≠ .flag → ¬ range.Takes (.bool b) := by
        intro range hrange h
        cases h
        exact hrange rfl
      simp [coerce, hnot]
  | _ =>
    refine iff_of_false ?_ ?_
    · cases range <;> simp [coerce]
    · rintro ⟨h, -⟩
      cases h

/-- An update takes what the field with the key takes, and holds it clamped. -/
theorem Layer.update_eq_ok_iff {layer updated : Layer} {key : Text} {value : Value} :
    layer.update key value = .ok updated ↔
      ∃ field ∈ layer.kind.fields, Text.ofString field.key = key ∧ field.range.Takes value ∧
        updated =
          { layer with config := layer.config.set field.key (field.range.clamp value) } := by
  constructor
  · intro h
    obtain ⟨field, hmem, hkey, held, hheld, rfl⟩ := update_eq_ok h
    obtain ⟨htakes, rfl⟩ := Field.coerce_eq_ok_iff.mp hheld
    exact ⟨field, hmem, hkey, htakes, rfl⟩
  · rintro ⟨field, hmem, rfl, htakes, rfl⟩
    have hheld : field.coerce value (some layer.id) = .ok (field.range.clamp value) :=
      Field.coerce_eq_ok_iff.mpr ⟨htakes, rfl⟩
    simp [update, Kind.field?_of_mem hmem, hheld]

/-- An update of a field that is there. -/
theorem Layer.update_field_eq_ok_iff {layer updated : Layer} {field : Field} {value : Value}
    (hfield : field ∈ layer.kind.fields) :
    layer.update (Text.ofString field.key) value = .ok updated ↔ field.range.Takes value ∧
      updated = { layer with config := layer.config.set field.key (field.range.clamp value) } := by
  rw [update_eq_ok_iff]
  constructor
  · rintro ⟨other, hother, hkey, htakes, rfl⟩
    obtain rfl := Kind.eq_of_key_eq hother hfield (Text.ofString_inj.mp hkey)
    exact ⟨htakes, rfl⟩
  · rintro ⟨htakes, rfl⟩
    exact ⟨field, hfield, rfl, htakes, rfl⟩

/-! ### Order -/

namespace Number

/-- Both numbers have a value, and that of the first one is not above that of the second. -/
def AtMost (x y : Number) : Prop := ∃ p q, x.value? = some p ∧ y.value? = some q ∧ p ≤ q

theorem floor_eq_floor_value {x : Number} {q : Rat} (h : x.value? = some q) :
    x.floor = q.floor := by
  cases x with
  | int n =>
    obtain rfl : (n : Rat) = q := by simpa [value?] using h
    rw [floor, Rat.floor_intCast]
  | real x =>
    simp only [value?] at h
    rw [floor, h, Option.getD_some]

theorem floor_mono {x y : Number} (h : x.AtMost y) : x.floor ≤ y.floor := by
  obtain ⟨p, q, hp, hq, hle⟩ := h
  rw [floor_eq_floor_value hp, floor_eq_floor_value hq]
  exact Rat.floor_monotone hle

end Number

namespace FieldRange

theorem clamp_mono {choices : List Int} {x y : Number} (h : x.AtMost y) :
    ∃ m n : Int, (whole choices).clamp (.num x) = .int m ∧
      (whole choices).clamp (.num y) = .int n ∧ m ≤ n :=
  ⟨_, _, rfl, rfl, max_le_max_left 1 (Number.floor_mono h)⟩

theorem clamp_int {range : FieldRange} {n : Int} (h : 1 ≤ n) :
    range.clamp (.int n) = .int n := by
  cases range <;> simp [clamp, Value.int, Number.floor, h]

end FieldRange

/-- What a field holds it takes again, and holds as it is.  Numbers that are given to a whole field
are held in the order of their values, and whole numbers of one at least as they are. -/
theorem Field.coerce_idempotent_mono (field : Field) :
    (∀ value held layerId, field.coerce value layerId = .ok held →
      ∀ layerId, field.coerce held layerId = .ok held) ∧
    (∀ choices, field.range = .whole choices → ∀ x y heldX heldY layerId other, x.AtMost y →
      field.coerce (.num x) layerId = .ok heldX → field.coerce (.num y) other = .ok heldY →
        ∃ m n : Int, heldX = .int m ∧ heldY = .int n ∧ m ≤ n) ∧
    (field.range ≠ .flag → ∀ n held layerId, 1 ≤ n →
      (field.coerce (.int n) layerId = .ok held ↔ n < Binary64.overflow ∧ held = .int n)) := by
  refine ⟨?_, ?_, ?_⟩
  · intro value held layerId hheld other
    exact coerce_of_holds (coerce_holds hheld) other
  · intro choices hrange x y heldX heldY layerId other hle hx hy
    obtain ⟨-, rfl⟩ := coerce_eq_ok_iff.mp hx
    obtain ⟨-, rfl⟩ := coerce_eq_ok_iff.mp hy
    rw [hrange]
    exact FieldRange.clamp_mono hle
  · intro hrange n held layerId hpos
    rw [coerce_eq_ok_iff, FieldRange.clamp_int hpos, FieldRange.takes_int hrange,
      abs_of_nonneg (by omega)]

/-- The width of a norm. -/
def normWidth : Field := .whole "num_features" [64, 128, 256, 512, 768, 1024] 128

/-- The largest double and the largest whole number that has a double, which are both held as whole
numbers of 309 digits. -/
theorem coerce_idempotent_mono_largest :
    normWidth ∈ Kind.batchnorm.fields ∧
      (Number.real (.ofRat Binary64.largest)).AtMost (.int (Binary64.overflow - 1)) ∧
      normWidth.coerce (.real (.ofRat Binary64.largest)) none = .ok (.int Binary64.largest) ∧
      normWidth.coerce (.int Binary64.largest) none = .ok (.int Binary64.largest) ∧
      normWidth.coerce (.int (Binary64.overflow - 1)) none = .ok (.int (Binary64.overflow - 1)) ∧
      ∃ m n : Int, Value.int Binary64.largest = .int m ∧
        Value.int (Binary64.overflow - 1) = .int n ∧ m ≤ n := by
  have hle : (Number.real (.ofRat Binary64.largest)).AtMost (.int (Binary64.overflow - 1)) :=
    ⟨Binary64.largest, (Binary64.overflow - 1 : Int), by decide +kernel, rfl, by decide +kernel⟩
  have hreal : normWidth.coerce (.real (.ofRat Binary64.largest)) none =
      .ok (.int Binary64.largest) := eq_ok_of_toOption (by decide +kernel)
  obtain ⟨hidempotent, hmono, hkept⟩ := Field.coerce_idempotent_mono normWidth
  have hwhole : normWidth.coerce (.int (Binary64.overflow - 1)) none =
      .ok (.int (Binary64.overflow - 1)) :=
    (hkept (by decide) _ _ none (by decide +kernel)).mpr ⟨by omega, rfl⟩
  exact ⟨by decide, hle, hreal, hidempotent _ _ none hreal none, hwhole,
    hmono _ rfl _ _ _ _ none none hle hreal hwhole⟩

end LayerStack
