import LayerStack.Proofs.Session

/-! What a step that ends in a fault leaves of a model.  Every step but a move looks at all that can
be wrong before it changes anything, and so does a move to a position.  A move to a number that is
no position has already taken its layer out when it fails, and that layer is gone.  In a session
without such moves and without deletions, no layer is lost. -/

namespace LayerStack

theorem takeOut?_eq_some_iff {α : Type} {items rest : List α} {position : Int} {x : α} :
    takeOut? items position = some (x, rest) ↔
      ∃ place, place? items.length position = some place ∧ items[place]? = some x ∧
        items.eraseIdx place = rest := by
  simp [takeOut?, Option.bind_eq_some_iff]

namespace Model

/-- The place of the layer that a move loses: one that can be taken out, and for which there is no
position to be put in at. -/
def lostPlace? (model : Model) (source target : Int) : Option Nat :=
  if source = target ∨ isPosition target then none
  else if isPosition source then place? model.layers.length source
  else none

theorem lostPlace?_eq_some_iff {model : Model} {source target : Int} {place : Nat} :
    model.lostPlace? source target = some place ↔
      source ≠ target ∧ isPosition target = false ∧ isPosition source = true ∧
        place? model.layers.length source = some place := by
  unfold lostPlace?
  by_cases hsame : source = target
  · simp [hsame]
  · cases isPosition target <;> cases isPosition source <;> simp [hsame]

theorem takeOut_of_place? {model : Model} {position : Int} {place : Nat}
    (hposition : isPosition position = true)
    (hplace : place? model.layers.length position = some place) :
    ∃ layer, model.takeOut position = .ok (layer, ⟨model.layers.eraseIdx place⟩) := by
  obtain ⟨layer, hlayer⟩ : ∃ layer, model.layers[place]? = some layer :=
    ⟨_, List.getElem?_eq_getElem (place?_lt hplace)⟩
  have hout := takeOut?_eq_some_iff.mpr ⟨place, hplace, hlayer, rfl⟩
  exact ⟨layer, by simp [takeOut, hposition, hout]⟩

theorem takeOut_eq_ok {model rest : Model} {position : Int} {layer : Layer}
    (h : model.takeOut position = .ok (layer, rest)) :
    isPosition position = true ∧ ∃ place, place? model.layers.length position = some place ∧
      rest = ⟨model.layers.eraseIdx place⟩ := by
  unfold takeOut at h
  split at h
  next hposition =>
    split at h <;> simp at h
    next hout =>
      obtain ⟨rfl, rfl⟩ := h
      obtain ⟨place, hplace, -, rfl⟩ := takeOut?_eq_some_iff.mp hout
      exact ⟨hposition, place, hplace, rfl⟩
  · simp at h

theorem eraseIdx_ne {model : Model} {place : Nat} (h : place < model.layers.length) :
    ⟨model.layers.eraseIdx place⟩ ≠ model := by
  intro heq
  have hlength := congrArg (fun model => model.layers.length) heq
  simp only [List.length_eraseIdx_of_lt h] at hlength
  omega

theorem insert_eq_error {model : Model} {layer : Layer} {position : Int} {fault : Fault}
    (h : model.insert layer (some position) = .error fault) :
    isPosition position = false ∧ fault = .positionTooLarge := by
  rw [insert] at h
  split at h <;> simp at h
  next hno => exact ⟨Bool.eq_false_iff.mpr hno, h.symm⟩

/-- A move that ends in a fault has either taken nothing out, or it has no position for the layer
that it has taken out. -/
theorem move_eq_error {model left : Model} {source target : Int} {fault : Fault}
    (h : model.move source target = (.error fault, left)) :
    (model.lostPlace? source target = none ∧ left = model) ∨
      ∃ place, model.lostPlace? source target = some place ∧ fault = .positionTooLarge ∧
        left = ⟨model.layers.eraseIdx place⟩ := by
  unfold move at h
  split at h
  · simp at h
  next hne =>
    cases hout : model.takeOut source with
    | error fault =>
      obtain ⟨-, rfl⟩ : _ ∧ model = left := by simpa [hout] using h
      refine .inl ⟨Option.eq_none_iff_forall_ne_some.mpr fun place hlost => ?_, rfl⟩
      obtain ⟨-, -, hsource, hplace⟩ := lostPlace?_eq_some_iff.mp hlost
      obtain ⟨layer, htaken⟩ := takeOut_of_place? hsource hplace
      simp [hout] at htaken
    | ok taken =>
      obtain ⟨layer, rest⟩ := taken
      obtain ⟨hsource, place, hplace, rfl⟩ := takeOut_eq_ok hout
      cases hinsert : Model.insert ⟨model.layers.eraseIdx place⟩ layer (some target) with
      | error fault =>
        obtain ⟨htarget, rfl⟩ := insert_eq_error hinsert
        obtain ⟨rfl, rfl⟩ : .positionTooLarge = fault ∧ _ = left := by simpa [hout, hinsert] using h
        exact .inr ⟨place, lostPlace?_eq_some_iff.mpr ⟨hne, htarget, hsource, hplace⟩, rfl, rfl⟩
      | ok moved => simp [hout, hinsert] at h

theorem move_perm_of_ok {model moved : Model} {source target : Int}
    (h : model.move source target = (.ok (), moved)) : moved.layers.Perm model.layers := by
  unfold move at h
  split at h
  · obtain rfl : model = moved := by simpa using h
    exact List.Perm.refl _
  next hne =>
    cases hout : model.takeOut source with
    | error fault => simp [hout] at h
    | ok taken =>
      obtain ⟨layer, rest⟩ := taken
      cases hinsert : rest.insert layer (some target) with
      | error fault => simp [hout, hinsert] at h
      | ok inserted =>
        obtain rfl : inserted = moved := by simpa [hout, hinsert] using h
        exact (insert_perm hinsert).trans (takeOut_perm hout).symm

end Model

/-- The place of the layer that a step loses, as only a move does. -/
def Edit.lostPlace? (model : Model) : Edit → Option Nat
  | .move source target => model.lostPlace? source target
  | _ => none

theorem Edit.lostPlace?_lt {model : Model} {edit : Edit} {place : Nat}
    (h : edit.lostPlace? model = some place) : place < model.layers.length := by
  cases edit with
  | move source target => exact place?_lt (Model.lostPlace?_eq_some_iff.mp h).2.2.2
  | _ => simp [lostPlace?] at h

/-- A step that neither deletes layers nor loses one. -/
def Edit.Keeps (model : Model) : Edit → Prop
  | .delete _ | .load _ => False
  | edit => edit.lostPlace? model = none

theorem Edit.Keeps.lostPlace? {model : Model} {edit : Edit} (h : edit.Keeps model) :
    edit.lostPlace? model = none := by
  cases edit with
  | delete id => exact h.elim
  | load payload => exact h.elim
  | _ => exact h

namespace Workspace

theorem apply_error_cases {workspace : Workspace} {edit : Edit} {fault : Fault}
    (h : (workspace.apply edit).1 = .error fault) :
    (edit.lostPlace? workspace.model = none ∧
        (workspace.apply edit).2.model = workspace.model) ∨
      ∃ place, edit.lostPlace? workspace.model = some place ∧ fault = .positionTooLarge ∧
        (workspace.apply edit).2.model = ⟨workspace.model.layers.eraseIdx place⟩ := by
  cases edit with
  | add kind position id =>
    rw [apply] at h ⊢
    split at h
    · simp at h
    · exact .inl ⟨rfl, rfl⟩
  | delete id => simp [apply] at h
  | move source target =>
    simp only [apply] at h ⊢
    cases hmove : workspace.model.move source target with
    | mk result left =>
      cases result with
      | ok => simp [hmove, Except.map] at h
      | error other =>
        obtain rfl : other = fault := by simpa [hmove, Except.map] using h
        exact Model.move_eq_error hmove
  | update id key value =>
    rw [apply] at h ⊢
    split at h
    · simp at h
    · exact .inl ⟨rfl, rfl⟩
  | load payload =>
    rw [apply] at h ⊢
    split at h
    · simp at h
    · exact .inl ⟨rfl, rfl⟩

/-- A step that ends in a fault leaves the model as it was, unless it is a move that loses a layer;
then the others stay as they were. -/
theorem model_apply_of_error {workspace : Workspace} {edit : Edit} {fault : Fault}
    (h : (workspace.apply edit).1 = .error fault) :
    ((workspace.apply edit).2.model = workspace.model ↔
        edit.lostPlace? workspace.model = none) ∧
      ∀ place, edit.lostPlace? workspace.model = some place →
        place < workspace.model.layers.length ∧ fault = .positionTooLarge ∧
          (workspace.apply edit).2.model = ⟨workspace.model.layers.eraseIdx place⟩ := by
  rcases apply_error_cases h with ⟨hkept, hmodel⟩ | ⟨place, hlost, hfault, hmodel⟩
  · simp [hkept, hmodel]
  · have hplace : place < workspace.model.layers.length := Edit.lostPlace?_lt hlost
    simp [hlost, hfault, hmodel, hplace, Model.eraseIdx_ne hplace]

/-- A session that adds one layer. -/
def singleSession : List Edit := [.add (.str "relu") none (some "a")]

/-- A move of the only layer to the first number that is too large for a position. -/
def moveBeyond : Edit := .move 0 (maxPosition + 1)

theorem model_apply_of_error_moveBeyond :
    let workspace := (start .counting).run singleSession
    (workspace.apply moveBeyond).1 = .error .positionTooLarge ∧
      ((workspace.apply moveBeyond).2.model = workspace.model ↔
        moveBeyond.lostPlace? workspace.model = none) ∧
      ∀ place, moveBeyond.lostPlace? workspace.model = some place →
        place < workspace.model.layers.length ∧ .positionTooLarge = Fault.positionTooLarge ∧
          (workspace.apply moveBeyond).2.model = ⟨workspace.model.layers.eraseIdx place⟩ :=
  have h : (((start .counting).run singleSession).apply moveBeyond).1 =
    .error .positionTooLarge := rfl
  ⟨h, model_apply_of_error h⟩

/-! ### Sessions -/

/-- Every step of a session keeps the layers that are there. -/
def KeepsAll (workspace : Workspace) : List Edit → Prop
  | [] => True
  | edit :: rest => edit.Keeps workspace.model ∧ (workspace.apply edit).2.KeepsAll rest

theorem ids_apply_of_keeps {workspace : Workspace} {edit : Edit}
    (h : edit.Keeps workspace.model) :
    workspace.model.ids.Subperm (workspace.apply edit).2.model.ids := by
  cases hresult : (workspace.apply edit).1 with
  | error fault =>
    rcases apply_error_cases hresult with ⟨-, hmodel⟩ | ⟨place, hlost, -, -⟩
    · rw [hmodel]
    · simp [h.lostPlace?] at hlost
  | ok answer =>
    cases edit with
    | add kind position id =>
      rw [apply] at hresult ⊢
      split at hresult
      next hadd =>
        obtain ⟨k, -, -, -, hinsert, -⟩ := Model.add_eq_ok hadd
        have hperm := (Model.insert_perm hinsert).map Layer.id
        exact (List.sublist_cons_self _ _).subperm.trans hperm.symm.subperm
      · simp at hresult
    | delete id => exact h.elim
    | move source target =>
      simp only [apply] at hresult ⊢
      cases hmove : workspace.model.move source target with
      | mk result moved =>
        cases result with
        | error fault => simp [hmove, Except.map] at hresult
        | ok => exact ((Model.move_perm_of_ok hmove).map Layer.id).symm.subperm
    | update id key value =>
      rw [apply] at hresult ⊢
      split at hresult
      next hupdate =>
        rw [← Model.update_ids hupdate]
      · simp at hresult
    | load payload => exact h.elim

/-- In a session without deletions and without moves that lose a layer, every id stays, whether the
steps succeed or not. -/
theorem ids_run_of_keepsAll {workspace : Workspace} {edits : List Edit}
    (h : workspace.KeepsAll edits) :
    workspace.model.ids.Subperm (workspace.run edits).model.ids := by
  induction edits generalizing workspace with
  | nil => exact List.Subperm.refl _
  | cons edit rest ih => exact (ids_apply_of_keeps h.1).trans (ih h.2)

end Workspace

/-- Not every step that ends in a fault leaves the model of a session as it was. -/
theorem not_apply_atomic : ¬ ∀ (workspace : Workspace) (edit : Edit) (fault : Fault),
    workspace.model.Reachable → (workspace.apply edit).1 = .error fault →
      (workspace.apply edit).2.model = workspace.model := by
  intro h
  have hsame := h ((Workspace.start .counting).run Workspace.singleSession) Workspace.moveBeyond
    .positionTooLarge ⟨.counting, Workspace.singleSession, rfl⟩ rfl
  exact absurd hsame (by decide +kernel)

end LayerStack
