import LayerStack.Entries
import Mathlib.Data.List.Nodup

/-! Entries whose names are distinct: a look-up finds every one of them, setting them over others
puts them before those, and setting them over others with the same names replaces those. -/

namespace LayerStack.Entries

variable {κ α : Type} [DecidableEq κ]

theorem mem_of_get? {entries : Entries κ α} {key : κ} {value : α}
    (h : entries.get? key = some value) : (key, value) ∈ entries := by
  induction entries with
  | nil => simp [get?] at h
  | cons entry rest ih =>
    obtain ⟨k, v⟩ := entry
    by_cases hk : k = key
    · simp only [get?, hk, if_true, Option.some.injEq] at h
      simp [hk, h]
    · simp only [get?, hk, if_false] at h
      exact List.mem_cons_of_mem _ (ih h)

theorem get?_of_mem {entries : Entries κ α} (hnodup : entries.keys.Nodup) {key : κ} {value : α}
    (h : (key, value) ∈ entries) : entries.get? key = some value := by
  induction entries with
  | nil => simp at h
  | cons entry rest ih =>
    obtain ⟨k, v⟩ := entry
    simp only [keys, List.map_cons, List.nodup_cons] at hnodup
    rcases List.mem_cons.mp h with heq | hrest
    · obtain ⟨rfl, rfl⟩ := Prod.mk.inj heq
      simp [get?]
    · have hne : k ≠ key := by
        rintro rfl
        exact hnodup.1 (List.mem_map_of_mem hrest)
      simp [get?, hne, ih hnodup.2 hrest]

theorem set_append_of_not_mem {before : Entries κ α} {key : κ} (after : Entries κ α) (value : α)
    (h : key ∉ before.keys) : set (before ++ after) key value = before ++ set after key value := by
  induction before with
  | nil => rfl
  | cons entry rest ih =>
    obtain ⟨k, v⟩ := entry
    simp only [keys, List.map_cons, List.mem_cons, not_or] at h
    simp only [List.cons_append, set, Ne.symm h.1, if_false]
    rw [ih h.2]

/-- Entries that are set over others with the same names replace them all. -/
theorem foldl_set (before : Entries κ α) {base pairs : Entries κ α}
    (hkeys : base.keys = pairs.keys) (hnodup : (before.keys ++ pairs.keys).Nodup) :
    pairs.foldl (fun entries pair => entries.set pair.1 pair.2) (before ++ base) =
      before ++ pairs := by
  induction pairs generalizing before base with
  | nil => simpa [keys] using hkeys
  | cons pair rest ih =>
    obtain ⟨key, value⟩ := pair
    cases base with
    | nil => simp [keys] at hkeys
    | cons entry base =>
      obtain ⟨k, v⟩ := entry
      simp only [keys, List.map_cons, List.cons.injEq] at hkeys
      obtain ⟨rfl, hrest⟩ := hkeys
      have hnew : k ∉ before.keys := by
        intro hmem
        exact List.disjoint_of_nodup_append hnodup hmem (by simp [keys])
      rw [List.foldl_cons, set_append_of_not_mem _ _ hnew]
      simp only [set, if_true]
      have hshift : before ++ (k, value) :: base = (before ++ [(k, value)]) ++ base := by simp
      rw [hshift, ih _ hrest (by simpa [keys] using hnodup)]
      simp

theorem nodup_keys_set {entries : Entries κ α} (h : entries.keys.Nodup) (key : κ) (value : α) :
    (entries.set key value).keys.Nodup := by
  by_cases hmem : key ∈ entries.keys
  · rwa [keys_set_of_mem entries value hmem]
  · rw [keys_set_of_not_mem entries value hmem]
    exact List.nodup_append.mpr ⟨h, by simp, by rintro a ha b hb rfl; simp_all⟩

theorem nodup_keys_ofPairs (pairs : List (κ × α)) : (ofPairs pairs).keys.Nodup := by
  have hfoldl : ∀ entries : Entries κ α, entries.keys.Nodup →
      (pairs.foldl (fun entries pair => entries.set pair.1 pair.2) entries).keys.Nodup := by
    induction pairs with
    | nil => exact fun entries h => h
    | cons pair rest ih => exact fun entries h => ih _ (nodup_keys_set h pair.1 pair.2)
  exact hfoldl [] (by simp [keys])

theorem mem_set {entries : Entries κ α} {key : κ} {value : α} {entry : κ × α}
    (h : entry ∈ entries.set key value) : entry ∈ entries ∨ entry = (key, value) := by
  induction entries with
  | nil => exact .inr (by simpa [set] using h)
  | cons first rest ih =>
    obtain ⟨k, v⟩ := first
    by_cases hk : k = key
    · subst hk
      simp only [set, if_true, List.mem_cons] at h
      rcases h with rfl | hrest
      · exact .inr rfl
      · exact .inl (List.mem_cons_of_mem _ hrest)
    · simp only [set, hk, if_false, List.mem_cons] at h
      rcases h with rfl | hrest
      · exact .inl List.mem_cons_self
      · exact (ih hrest).imp_left (List.mem_cons_of_mem _)

theorem mem_foldl_set {entries pairs : Entries κ α} {entry : κ × α}
    (h : entry ∈ pairs.foldl (fun entries pair => entries.set pair.1 pair.2) entries) :
    entry ∈ entries ∨ entry ∈ pairs := by
  induction pairs generalizing entries with
  | nil => exact .inl h
  | cons pair rest ih =>
    rcases ih h with hset | hrest
    · rcases mem_set hset with hmem | rfl
      · exact .inl hmem
      · exact .inr List.mem_cons_self
    · exact .inr (List.mem_cons_of_mem _ hrest)

/-- Of entries that are set over others, each one is found before those. -/
theorem get?_foldl_set {entries pairs : Entries κ α} (hnodup : pairs.keys.Nodup) (key : κ) :
    (pairs.foldl (fun entries pair => entries.set pair.1 pair.2) entries).get? key =
      (pairs.get? key).or (entries.get? key) := by
  induction pairs generalizing entries with
  | nil => rfl
  | cons pair rest ih =>
    obtain ⟨k, v⟩ := pair
    simp only [keys, List.map_cons, List.nodup_cons] at hnodup
    rw [List.foldl_cons, ih hnodup.2]
    by_cases hk : k = key
    · subst hk
      have hnone : Entries.get? rest k = none := by
        rw [← Option.not_isSome_iff_eq_none, isSome_get?_iff]
        exact hnodup.1
      simp [get?, hnone]
    · simp [get?, hk, get?_set_of_ne _ _ hk]

/-- Of two values that are set for a name, the later one counts. -/
theorem set_set (entries : Entries κ α) (key : κ) (value later : α) :
    (entries.set key value).set key later = entries.set key later := by
  induction entries with
  | nil => simp [set]
  | cons entry rest ih =>
    obtain ⟨k, v⟩ := entry
    by_cases hk : k = key <;> simp [set, hk, ih]

/-- Values of two names can be set in either order, if one of the names is there already. -/
theorem set_comm {entries : Entries κ α} {key other : κ} (value otherValue : α) (hne : key ≠ other)
    (hmem : key ∈ entries.keys) :
    (entries.set key value).set other otherValue =
      (entries.set other otherValue).set key value := by
  induction entries with
  | nil => simp [keys] at hmem
  | cons entry rest ih =>
    obtain ⟨k, v⟩ := entry
    by_cases hk : k = key
    · subst hk
      simp [set, hne]
    · have hrest : key ∈ keys rest := by simpa [keys, Ne.symm hk] using hmem
      by_cases hother : k = other
      · subst hother
        simp [set, hk]
      · simp [set, hk, hother, ih hrest]

end LayerStack.Entries
