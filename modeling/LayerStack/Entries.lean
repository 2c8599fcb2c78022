/-! Named entries, kept in the order in which their names first appeared. -/

namespace LayerStack

/-- A list of names with their values. -/
abbrev Entries (κ α : Type) := List (κ × α)

namespace Entries

variable {κ α : Type} [DecidableEq κ]

/-- The value of the first entry with the given name. -/
def get? : Entries κ α → κ → Option α
  | [], _ => none
  | (k, v) :: rest, key => if k = key then some v else get? rest key

/-- The entries with `key` holding `value`: in its place if the name is there, else at the end. -/
def set : Entries κ α → κ → α → Entries κ α
  | [], key, value => [(key, value)]
  | (k, v) :: rest, key, value =>
    if k = key then (k, value) :: rest else (k, v) :: set rest key value

def keys {κ α : Type} (entries : Entries κ α) : List κ := entries.map (·.1)

@[simp] theorem get?_set_self (entries : Entries κ α) (key : κ) (value : α) :
    (entries.set key value).get? key = some value := by
  induction entries with
  | nil => simp [set, get?]
  | cons entry rest ih =>
    obtain ⟨k, v⟩ := entry
    by_cases h : k = key <;> simp [set, get?, h, ih]

theorem get?_set_of_ne (entries : Entries κ α) {key other : κ} (value : α) (h : key ≠ other) :
    (entries.set key value).get? other = entries.get? other := by
  induction entries with
  | nil => simp [set, get?, h]
  | cons entry rest ih =>
    obtain ⟨k, v⟩ := entry
    by_cases hk : k = key
    · subst hk; simp [set, get?, h]
    · simp [set, get?, hk, ih]

theorem isSome_get?_iff (entries : Entries κ α) (key : κ) :
    (entries.get? key).isSome ↔ key ∈ entries.keys := by
  induction entries with
  | nil => simp [get?, keys]
  | cons entry rest ih =>
    obtain ⟨k, v⟩ := entry
    by_cases h : k = key
    · simp [get?, keys, h]
    · simp only [keys] at ih
      simp [get?, keys, h, Ne.symm h, ih]

theorem keys_set_of_mem (entries : Entries κ α) {key : κ} (value : α) (h : key ∈ entries.keys) :
    (entries.set key value).keys = entries.keys := by
  induction entries with
  | nil => simp [keys] at h
  | cons entry rest ih =>
    obtain ⟨k, v⟩ := entry
    by_cases hk : k = key
    · simp [set, keys, hk]
    · have hrest : key ∈ keys rest := by simpa [keys, Ne.symm hk] using h
      have := ih hrest
      simp only [keys] at this
      simp [set, keys, hk, this]

theorem keys_set_of_not_mem (entries : Entries κ α) {key : κ} (value : α)
    (h : key ∉ entries.keys) : (entries.set key value).keys = entries.keys ++ [key] := by
  induction entries with
  | nil => simp [set, keys]
  | cons entry rest ih =>
    obtain ⟨k, v⟩ := entry
    have hk : k ≠ key := by
      intro e; simp [keys, e] at h
    have hrest : key ∉ keys rest := by
      intro e; simp only [keys, List.map_cons, List.mem_cons, not_or] at h; exact h.2 e
    have := ih hrest
    simp only [keys] at this
    simp [set, keys, hk, this]

/-- Entries set one after the other, so that the last value given for a name counts. -/
def ofPairs (pairs : List (κ × α)) : Entries κ α :=
  pairs.foldl (fun entries pair => entries.set pair.1 pair.2) []

end Entries

end LayerStack
