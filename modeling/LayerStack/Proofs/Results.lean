import LayerStack.Fault
import Mathlib.Data.List.Forall2

/-! What a computation that may end in a fault gives when it succeeds: each part of it has
succeeded.  When it fails, one part of it has. -/

namespace LayerStack

variable {ε α β γ : Type}

@[simp] theorem map_eq_ok {f : α → β} {x : Except ε α} {b : β} :
    x.map f = .ok b ↔ ∃ a, x = .ok a ∧ f a = b := by
  cases x <;> simp [Except.map]

@[simp] theorem functorMap_eq_ok {f : α → β} {x : Except ε α} {b : β} :
    f <$> x = .ok b ↔ ∃ a, x = .ok a ∧ f a = b := map_eq_ok

@[simp] theorem bind_eq_ok {x : Except ε α} {f : α → Except ε β} {b : β} :
    x >>= f = .ok b ↔ ∃ a, x = .ok a ∧ f a = .ok b := by
  cases x <;> simp [bind, Except.bind]

@[simp] theorem pure_eq_ok {a b : α} : (pure a : Except ε α) = .ok b ↔ a = b := by
  simp [pure, Except.pure]

theorem eq_ok_of_toOption {x : Except ε α} {a : α} (h : x.toOption = some a) : x = .ok a := by
  cases x with
  | error fault => simp [Except.toOption] at h
  | ok b => simpa [Except.toOption] using h

/-- A list of computations succeeds if every one of them does. -/
theorem mapM_eq_ok {f : α → Except ε β} {as : List α} {bs : List β} :
    as.mapM f = .ok bs ↔ List.Forall₂ (fun a b => f a = .ok b) as bs := by
  induction as generalizing bs with
  | nil => cases bs <;> simp
  | cons a rest ih =>
    cases bs with
    | nil => simp
    | cons b bs => simp [ih, and_left_comm]

theorem mapM_eq_map {f : α → Except ε β} {g : α → β} {as : List α} (h : ∀ a ∈ as, f a = .ok (g a)) :
    as.mapM f = .ok (as.map g) :=
  mapM_eq_ok.mpr (List.forall₂_map_right_iff.mpr (List.forall₂_same.mpr h))

/-- Two computations succeed one after the other for every item if the first one succeeds for every
item, and the second one for every result of the first. -/
theorem mapM_bind_eq_ok {f : α → Except ε β} {g : β → Except ε γ} {as : List α} {cs : List γ} :
    as.mapM (fun a => f a >>= g) = .ok cs ↔ ∃ bs, as.mapM f = .ok bs ∧ bs.mapM g = .ok cs := by
  simp only [mapM_eq_ok, bind_eq_ok]
  induction as generalizing cs with
  | nil => simp
  | cons a rest ih =>
    simp only [List.forall₂_cons_left_iff, ih]
    constructor
    · rintro ⟨c, cs, ⟨b, hb, hc⟩, ⟨bs, hbs, hcs⟩, rfl⟩
      exact ⟨b :: bs, ⟨b, bs, hb, hbs, rfl⟩, .cons hc hcs⟩
    · rintro ⟨_, ⟨b, bs, hb, hbs, rfl⟩, h⟩
      obtain ⟨c, cs, hc, hcs, rfl⟩ := List.forall₂_cons_left_iff.mp h
      exact ⟨c, cs, ⟨b, hb, hc⟩, ⟨bs, hbs, hcs⟩, rfl⟩

theorem exists_of_mapM_eq_ok {f : α → Except ε β} {as : List α} {bs : List β}
    (h : as.mapM f = .ok bs) {a : α} (ha : a ∈ as) : ∃ b, f a = .ok b := by
  rw [mapM_eq_ok] at h
  induction h with
  | nil => simp at ha
  | cons hfirst _ ih =>
    rcases List.mem_cons.mp ha with rfl | hrest
    · exact ⟨_, hfirst⟩
    · exact ih hrest

/-- A list of computations that fails does so in one of them. -/
theorem mapM_eq_error {f : α → Except ε β} {as : List α} {e : ε} (h : as.mapM f = .error e) :
    ∃ a ∈ as, f a = .error e := by
  induction as with
  | nil => simp [pure, Except.pure] at h
  | cons a rest ih =>
    rw [List.mapM_cons] at h
    cases ha : f a with
    | error other =>
      obtain rfl : other = e := by simpa [ha, bind, Except.bind] using h
      exact ⟨a, List.mem_cons_self, ha⟩
    | ok b =>
      cases hrest : rest.mapM f with
      | error other =>
        obtain rfl : other = e := by simpa [ha, hrest, bind, Except.bind] using h
        obtain ⟨found, hmem, hfound⟩ := ih hrest
        exact ⟨found, List.mem_cons_of_mem _ hmem, hfound⟩
      | ok bs => simp [ha, hrest, bind, Except.bind, pure, Except.pure] at h

end LayerStack
