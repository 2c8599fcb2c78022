import LayerStack.Proofs.Configured
import Mathlib.Data.List.Forall2
import Mathlib.Data.List.Perm.Subperm

/-! Equality of values is an equivalence where nothing is NaN and the members of every object have
distinct names, which is how the members of an object are once they are read. -/

namespace LayerStack

namespace Value

/-- A property of all values follows from what it takes for each sort of value. -/
@[induction_eliminator]
theorem parts_induction {motive : Value → Prop} (null : motive .null) (bool : ∀ b, motive (.bool b))
    (num : ∀ x, motive (.num x)) (str : ∀ s, motive (.str s))
    (list : ∀ items, (∀ v ∈ items, motive v) → motive (.list items))
    (obj : ∀ members, (∀ m ∈ members, motive m.2) → motive (.obj members)) : ∀ v, motive v :=
  @Value.rec motive (fun items => ∀ v ∈ items, motive v)
    (fun members => ∀ m ∈ members, motive m.2) (fun m => motive m.2) null bool num str list obj
    (by simp) (fun _ _ hv hrest => List.forall_mem_cons.mpr ⟨hv, hrest⟩)
    (by simp) (fun _ _ hm hrest => List.forall_mem_cons.mpr ⟨hm, hrest⟩) (fun _ _ hv => hv)

mutual

/-- No part of the value is NaN, and the members of every object have distinct names. -/
def Comparable : Value → Prop
  | .num x => x ≠ .real .nan
  | .list items => ComparableItems items
  | .obj members => (Entries.keys members).Nodup ∧ ComparableMembers members
  | _ => True

def ComparableItems : List Value → Prop
  | [] => True
  | v :: rest => Comparable v ∧ ComparableItems rest

def ComparableMembers : List (Text × Value) → Prop
  | [] => True
  | (_, v) :: rest => Comparable v ∧ ComparableMembers rest

end

theorem comparableItems_iff {items : List Value} :
    ComparableItems items ↔ ∀ v ∈ items, v.Comparable := by
  induction items with
  | nil => simp [ComparableItems]
  | cons v rest ih => simp [ComparableItems, ih]

theorem comparableMembers_iff {members : List (Text × Value)} :
    ComparableMembers members ↔ ∀ m ∈ members, m.2.Comparable := by
  induction members with
  | nil => simp [ComparableMembers]
  | cons m rest ih => simp [ComparableMembers, ih]

end Value

/-! ### Numbers -/

namespace Number

/-- What a number is compared by: its exact value, or the sign of its infinity. -/
def measure : Number → Option (Rat ⊕ Bool)
  | .int n => some (.inl n)
  | .real (.finite negative m _) => some (.inl (if negative then -m else m))
  | .real (.infinite negative) => some (.inr negative)
  | .real .nan => none

theorem same_iff {x y : Number} :
    x.same y = true ↔ ∃ m, y.measure = some m ∧ x.measure = some m := by
  rcases x with n | _ | _ | _ <;> rcases y with k | _ | _ | _ <;>
    simp [Number.same, Binary64.same, value?, Binary64.toRat?, measure]

theorem same_refl {x : Number} (h : x ≠ .real .nan) : x.same x = true := by
  rcases x with n | _ | _ | _ <;> simp_all [same_iff, measure]

theorem same_symm {x y : Number} (h : x.same y = true) : y.same x = true := by
  obtain ⟨m, hy, hx⟩ := same_iff.mp h
  exact same_iff.mpr ⟨m, hx, hy⟩

theorem same_trans {x y z : Number} (hxy : x.same y = true) (hyz : y.same z = true) :
    x.same z = true := by
  obtain ⟨m, hy, hx⟩ := same_iff.mp hxy
  obtain ⟨k, hz, hy'⟩ := same_iff.mp hyz
  rw [hy, Option.some.injEq] at hy'
  exact same_iff.mpr ⟨m, hy' ▸ hz, hx⟩

end Number

namespace Value

/-! ### Values -/

theorem sameItems_iff {vs ws : List Value} :
    sameItems vs ws = true ↔ List.Forall₂ (fun v w => v.same w = true) vs ws := by
  induction vs generalizing ws with
  | nil => cases ws <;> simp [sameItems]
  | cons v rest ih => cases ws <;> simp [sameItems, ih]

theorem sameMembers_iff {ms : List (Text × Value)} {others : Members} :
    sameMembers ms others = true ↔
      ∀ m ∈ ms, ∃ w, others.get? m.1 = some w ∧ m.2.same w = true := by
  induction ms with
  | nil => simp [sameMembers]
  | cons m rest ih =>
    obtain ⟨k, v⟩ := m
    cases hget : others.get? k <;> simp [sameMembers, ih, hget]

/-- Numbers and flags are equal as numbers. -/
theorem same_of_number? {v w : Value} {x : Number} (hv : v.number? = some x) :
    v.same w = true ↔ ∃ y, w.number? = some y ∧ x.same y = true := by
  cases v <;> simp [number?] at hv <;> subst hv <;> cases w <;> simp [same, number?]

theorem same_refl {v : Value} (h : v.Comparable) : v.same v = true := by
  induction v with
  | null => rfl
  | str s => simp [same]
  | bool b => exact (same_of_number? rfl).mpr ⟨_, rfl, Number.same_refl (by simp)⟩
  | num x => exact (same_of_number? rfl).mpr ⟨_, rfl, Number.same_refl h⟩
  | list items ih =>
    rw [same, sameItems_iff, List.forall₂_same]
    exact fun v hv => ih v hv (comparableItems_iff.mp h v hv)
  | obj members ih =>
    simp only [same, decide_true, Bool.true_and, sameMembers_iff]
    intro m hm
    exact ⟨m.2, Entries.get?_of_mem h.1 hm, ih m hm (comparableMembers_iff.mp h.2 m hm)⟩

/-- Objects that are equal have the same names. -/
theorem keys_perm {ms ns : List (Text × Value)} (hnodup : (Entries.keys ms).Nodup)
    (hlength : ms.length = ns.length)
    (h : ∀ m ∈ ms, ∃ w, Entries.get? ns m.1 = some w ∧ m.2.same w = true) :
    (Entries.keys ms).Perm (Entries.keys ns) := by
  have hsubset : Entries.keys ms ⊆ Entries.keys ns := by
    intro k hk
    obtain ⟨m, hm, rfl⟩ := List.mem_map.mp hk
    obtain ⟨w, hget, -⟩ := h m hm
    exact List.mem_map.mpr ⟨_, Entries.mem_of_get? hget, rfl⟩
  exact (hnodup.subperm hsubset).perm_of_length_le (by simp [Entries.keys, hlength])

theorem same_symm {v w : Value} (hv : v.Comparable) (hw : w.Comparable) (h : v.same w = true) :
    w.same v = true := by
  induction v generalizing w with
  | null => cases w <;> simp_all [same, number?]
  | str s => cases w <;> simp_all [same, number?]
  | bool b =>
    obtain ⟨y, hy, hsame⟩ := (same_of_number? rfl).mp h
    exact (same_of_number? hy).mpr ⟨_, rfl, Number.same_symm hsame⟩
  | num x =>
    obtain ⟨y, hy, hsame⟩ := (same_of_number? rfl).mp h
    exact (same_of_number? hy).mpr ⟨_, rfl, Number.same_symm hsame⟩
  | list items ih =>
    cases w with
    | list others =>
      rw [same, sameItems_iff] at h ⊢
      rw [Comparable, comparableItems_iff] at hv hw
      induction h with
      | nil => exact .nil
      | cons hsame _ ihrest =>
        rw [List.forall_mem_cons] at ih hv hw
        exact .cons (ih.1 hv.1 hw.1 hsame) (ihrest ih.2 hv.2 hw.2)
    | _ => simp [same, number?] at h
  | obj members ih =>
    cases w with
    | obj others =>
      simp only [same, Bool.and_eq_true, decide_eq_true_eq, sameMembers_iff] at h ⊢
      obtain ⟨hlength, hall⟩ := h
      refine ⟨hlength.symm, fun m hm => ?_⟩
      -- Objects of one length with distinct names have the same names, so that `m` has a partner.
      have hkey : m.1 ∈ Entries.keys members :=
        (keys_perm hv.1 hlength hall).mem_iff.mpr (List.mem_map_of_mem hm)
      obtain ⟨⟨k, v⟩, hmem, rfl⟩ := List.mem_map.mp hkey
      obtain ⟨w, hget, hsame⟩ := hall _ hmem
      rw [Entries.get?_of_mem hw.1 hm, Option.some.injEq] at hget
      subst hget
      exact ⟨v, Entries.get?_of_mem hv.1 hmem, ih _ hmem (comparableMembers_iff.mp hv.2 _ hmem)
        (comparableMembers_iff.mp hw.2 _ hm) hsame⟩
    | _ => simp [same, number?] at h

theorem same_trans {v w u : Value} (hvw : v.same w = true) (hwu : w.same u = true) :
    v.same u = true := by
  induction v generalizing w u with
  | null => cases w <;> cases u <;> simp_all [same, number?]
  | str s => cases w <;> cases u <;> simp_all [same, number?]
  | bool b =>
    obtain ⟨y, hy, hsame⟩ := (same_of_number? rfl).mp hvw
    obtain ⟨z, hz, hsame'⟩ := (same_of_number? hy).mp hwu
    exact (same_of_number? rfl).mpr ⟨z, hz, Number.same_trans hsame hsame'⟩
  | num x =>
    obtain ⟨y, hy, hsame⟩ := (same_of_number? rfl).mp hvw
    obtain ⟨z, hz, hsame'⟩ := (same_of_number? hy).mp hwu
    exact (same_of_number? rfl).mpr ⟨z, hz, Number.same_trans hsame hsame'⟩
  | list items ih =>
    cases w with
    | list others =>
      cases u with
      | list more =>
        rw [same, sameItems_iff] at hvw hwu ⊢
        induction hvw generalizing more with
        | nil => exact hwu
        | cons hsame hrest ihrest =>
          cases hwu with
          | cons hsame' hrest' =>
            rw [List.forall_mem_cons] at ih
            exact .cons (ih.1 hsame hsame') (ihrest ih.2 _ hrest')
      | _ => simp [same, number?] at hwu
    | _ => simp [same, number?] at hvw
  | obj members ih =>
    cases w with
    | obj others =>
      cases u with
      | obj more =>
        simp only [same, Bool.and_eq_true, decide_eq_true_eq, sameMembers_iff] at hvw hwu ⊢
        refine ⟨hvw.1.trans hwu.1, fun m hm => ?_⟩
        obtain ⟨w, hget, hsame⟩ := hvw.2 m hm
        obtain ⟨u, hget', hsame'⟩ := hwu.2 _ (Entries.mem_of_get? hget)
        exact ⟨u, hget', ih m hm hsame hsame'⟩
      | _ => simp [same, number?] at hwu
    | _ => simp [same, number?] at hvw

end Value

namespace Config

theorem same_toValue (a b : Config) : a.toValue.same b.toValue = a.same b := by
  obtain ⟨as⟩ := a
  obtain ⟨bs⟩ := b
  have hget : ∀ key : String, Entries.get? (bs.map fun entry => (Text.ofString entry.1, entry.2))
      (Text.ofString key) = Entries.get? bs key := by
    intro key
    induction bs with
    | nil => rfl
    | cons entry rest ih => simp [Entries.get?, ih]
  rw [Bool.eq_iff_iff]
  simp only [toValue, Value.same, same, get?, List.length_map, Bool.and_eq_true,
    Value.sameMembers_iff, List.forall_mem_map, hget, List.all_eq_true]
  refine and_congr_right fun _ => forall₂_congr fun entry _ => ?_
  cases Entries.get? bs entry.1 <;> simp

/-- Nothing in the configuration is NaN, and its keys and the names in its objects are distinct. -/
def Comparable (config : Config) : Prop := config.toValue.Comparable

variable {a b c : Config}

theorem same_refl (h : a.Comparable) : a.same a = true := by
  rw [← same_toValue]
  exact Value.same_refl h

theorem same_symm (ha : a.Comparable) (hb : b.Comparable) (h : a.same b = true) :
    b.same a = true := by
  rw [← same_toValue] at h ⊢
  exact Value.same_symm ha hb h

theorem same_trans (hab : a.same b = true) (hbc : b.same c = true) : a.same c = true := by
  rw [← same_toValue] at hab hbc ⊢
  exact Value.same_trans hab hbc

end Config

theorem Layer.Configured.comparable {layer : Layer} (h : layer.Configured) :
    layer.config.Comparable := by
  have hnames : (layer.config.keys.map Text.ofString).Nodup := by
    have hinjective : Function.Injective Text.ofString := fun _ _ => Text.ofString_inj.mp
    rw [h.keys]
    exact layer.kind.nodup_keys.map hinjective
  constructor
  · simpa [Config.keys, Entries.keys, Function.comp_def] using hnames
  rw [Value.comparableMembers_iff, List.forall_mem_map]
  rintro ⟨key, value⟩ hentry
  obtain ⟨field, -, -, hholds⟩ := h.entry hentry
  generalize field.range = range at hholds
  cases hholds with
  | whole => simp [Value.Comparable]
  | @real least most step x finite =>
    rintro rfl
    simp [Number.isFinite, Number.toBinary64?, Binary64.isFinite] at finite
  | flag => simp [Value.Comparable]

end LayerStack
