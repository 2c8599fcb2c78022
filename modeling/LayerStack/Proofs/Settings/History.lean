import LayerStack.Proofs.Settings.Answers

/-! The settings over a history of requests.  What is stored for a setting is what the last update
that was accepted and mentions it gave it, and nothing else stores anything. -/

namespace LayerStack.Service

open UserSetting (ValidMember Showable putAll)

theorem Request.nodup_keys_of_json? {request : Request} {members : Members}
    (h : request.json? = .ok (some (.obj members))) : members.keys.Nodup :=
  (Value.isJson_obj.mp (isJson_of_json? h)).1

/-! ### Histories -/

/-- The visit after requests that are made one after the other. -/
def Visit.after [Machine] (defaults : Defaults) (visit : Visit) (requests : List Request) : Visit :=
  requests.foldl (fun visit request => (respond defaults request visit).2) visit

/-- The members that a request stores, if it is an update that is accepted. -/
def Request.accepted? (request : Request) : Option Members :=
  if request.Asks "POST" .settings then request.update? else none

theorem Request.accepted?_eq_some {request : Request} {members : Members}
    (h : request.accepted? = some members) :
    request.json? = .ok (some (.obj members)) ∧ ∀ member ∈ members, ValidMember member := by
  unfold accepted? at h
  split at h
  · exact update?_eq_some.mp h
  · simp at h

/-- The value that a request stores for a setting. -/
def Request.given? (request : Request) (setting : UserSetting) : Option Value :=
  request.accepted?.bind fun members => members.get? setting.name

/-- The value that the last accepted update that mentions a setting gave it. -/
def lastGiven? (setting : UserSetting) (requests : List Request) : Option Value :=
  requests.reverse.findSome? fun request => request.given? setting

theorem Visit.after_cons [Machine] (defaults : Defaults) (visit : Visit) (request : Request)
    (rest : List Request) : visit.after defaults (request :: rest) =
      (respond defaults request visit).2.after defaults rest := rfl

theorem Visit.after_append_singleton [Machine] (defaults : Defaults) (visit : Visit)
    (requests : List Request) (request : Request) : visit.after defaults (requests ++ [request]) =
      (respond defaults request (visit.after defaults requests)).2 := by
  simp [after]

theorem lastGiven?_cons (setting : UserSetting) (request : Request) (rest : List Request) :
    lastGiven? setting (request :: rest) =
      (lastGiven? setting rest).or (request.given? setting) := by
  simp [lastGiven?, List.findSome?_append]

theorem valid_lastGiven? {setting : UserSetting} {requests : List Request} {value : Value}
    (h : lastGiven? setting requests = some value) : setting.Valid value := by
  obtain ⟨request, -, hgiven⟩ := List.exists_of_findSome?_eq_some h
  obtain ⟨members, haccepted, hget⟩ := Option.bind_eq_some_iff.mp hgiven
  have hmembers := (Request.accepted?_eq_some haccepted).2
  exact UserSetting.validMember_name.mp (hmembers _ (Entries.mem_of_get? hget))

/-- All settings are shown, each with the value that was last given to it, or else with the one that
it has for a visitor who prefers a language. -/
def Response.ShowsAfter (defaults : Defaults) (preferred : Option String)
    (requests : List Request) (response : Response) : Prop :=
  response = .settings fun setting =>
    (lastGiven? setting requests).getD (setting.initial defaults preferred)

/-! ### One request -/

section Step

variable [Machine] (defaults : Defaults) (request : Request) (visit : Visit)

/-- Nothing but an update touches the session. -/
theorem session_respond_of_not_update (h : ¬ request.Asks "POST" .settings) :
    (respond defaults request visit).2.session = visit.session := by
  rw [respond]
  split
  · rfl
  next route hroute =>
    cases route with
    | settings =>
      have hmethod : request.method ≠ "POST" := fun hmethod => h ⟨hmethod, hroute⟩
      simp [handle, hmethod]
    | _ => rfl

theorem session_respond :
    (respond defaults request visit).2.session =
      (request.accepted?.map fun members => putAll visit.session members).getD visit.session := by
  by_cases h : request.Asks "POST" .settings
  · cases hupdate : request.update? with
    | some members =>
      simp [Request.accepted?, h, hupdate, respond_update_of_some defaults visit h hupdate]
    | none =>
      simp [Request.accepted?, h, hupdate, (respond_update_of_none defaults visit h hupdate).1]
  · simp [Request.accepted?, h, session_respond_of_not_update]

theorem get?_session_respond (setting : UserSetting) :
    (respond defaults request visit).2.session.get? setting.name =
      (request.given? setting).or (visit.session.get? setting.name) := by
  rw [session_respond]
  cases haccepted : request.accepted? with
  | none => simp [Request.given?, haccepted]
  | some members =>
    have hnodup := Request.nodup_keys_of_json? (Request.accepted?_eq_some haccepted).1
    simp [Request.given?, haccepted, putAll, Entries.get?_foldl_set hnodup]

theorem validMember_of_mem_session_respond (h : ∀ member ∈ visit.session, ValidMember member) :
    ∀ member ∈ (respond defaults request visit).2.session, ValidMember member := by
  rw [session_respond]
  cases haccepted : request.accepted? with
  | none => simpa [haccepted] using h
  | some members =>
    exact UserSetting.validMember_of_mem_putAll h (Request.accepted?_eq_some haccepted).2

end Step

/-! ### All requests -/

section Run

variable [Machine] (defaults : Defaults) (visit : Visit) (requests : List Request)

theorem get?_session_after (setting : UserSetting) :
    (visit.after defaults requests).session.get? setting.name =
      (lastGiven? setting requests).or (visit.session.get? setting.name) := by
  induction requests generalizing visit with
  | nil => rfl
  | cons request rest ih =>
    rw [Visit.after_cons, ih, get?_session_respond, lastGiven?_cons, Option.or_assoc]

theorem validMember_of_mem_session_after (h : ∀ member ∈ visit.session, ValidMember member) :
    ∀ member ∈ (visit.after defaults requests).session, ValidMember member := by
  induction requests generalizing visit with
  | nil => exact h
  | cons request rest ih =>
    exact ih _ (validMember_of_mem_session_respond defaults request visit h)

/-- What is held for a setting of which nothing was stored before is what it was last given. -/
theorem held?_after (ids : IdSource) (setting : UserSetting) :
    setting.held? (Visit.after defaults ⟨[], ids⟩ requests).session =
      lastGiven? setting requests := by
  have hvalid := validMember_of_mem_session_after defaults ⟨[], ids⟩ requests (by simp)
  rw [UserSetting.held?_of_valid hvalid, get?_session_after]
  simp [Entries.get?]

theorem not_noKey_after (ids : IdSource) {setting : UserSetting} {value : Value}
    (hget : (Visit.after defaults ⟨[], ids⟩ requests).session.get? setting.name = some value) :
    ¬ setting.NoKey value := by
  have hvalid := validMember_of_mem_session_after defaults ⟨[], ids⟩ requests (by simp)
  exact (UserSetting.validMember_name.mp (hvalid _ (Entries.mem_of_get? hget))).not_noKey

theorem showsAfter_ofSession (ids : IdSource) (preferred : Option String) :
    (Response.ofSession defaults preferred
      (Visit.after defaults ⟨[], ids⟩ requests).session).ShowsAfter
        defaults preferred requests := by
  have hshowable : Showable (Visit.after defaults ⟨[], ids⟩ requests).session :=
    fun _ _ => not_noKey_after defaults requests ids
  rw [Response.ofSession_of_showable hshowable, Response.ShowsAfter]
  simp only [UserSetting.shown, held?_after]

end Run

/-- Whatever was requested by a visitor who had stored nothing, the session holds nothing but valid
settings, and they are shown as they were last given.  An update is either accepted and shown with
those before it, or it changes nothing and is not answered with settings; and no other request
touches the session. -/
theorem settings_after_requests [Machine] (defaults : Defaults) (ids : IdSource)
    (requests : List Request) :
    (∀ member ∈ (Visit.after defaults ⟨[], ids⟩ requests).session, ValidMember member) ∧
      ∀ (request : Request) (visit : Visit), visit = .after defaults ⟨[], ids⟩ requests →
        (request.Asks "GET" .settings →
          (respond defaults request visit).1.ShowsAfter defaults request.preferred requests ∧
            (respond defaults request visit).2 = visit) ∧
        (request.Asks "POST" .settings →
          request.update?.isSome ∧ (respond defaults request visit).1.ShowsAfter defaults
              request.preferred (requests ++ [request]) ∨
            request.update? = none ∧ (respond defaults request visit).2 = visit ∧
              ((∃ fault, fault.IsSettings ∧
                  (respond defaults request visit).1 = .report 400 fault) ∨
                (respond defaults request visit).1 = .bare 500)) ∧
        (¬ request.Asks "POST" .settings →
          (respond defaults request visit).2.session = visit.session) := by
  refine ⟨validMember_of_mem_session_after defaults ⟨[], ids⟩ requests (by simp), ?_⟩
  rintro request visit rfl
  refine ⟨fun hget => ?_, fun hpost => ?_, session_respond_of_not_update defaults request _⟩
  · rw [respond_settings defaults _ hget]
    exact ⟨showsAfter_ofSession defaults requests ids request.preferred, rfl⟩
  · cases hupdate : request.update? with
    | some members =>
      refine .inl ⟨rfl, ?_⟩
      have hshows :=
        showsAfter_ofSession defaults (requests ++ [request]) ids request.preferred
      have hrespond :=
        respond_update_of_some defaults (.after defaults ⟨[], ids⟩ requests) hpost hupdate
      rw [Visit.after_append_singleton, hrespond] at hshows
      rw [hrespond]
      exact hshows
    | none =>
      obtain ⟨hkept, hanswer⟩ := respond_update_of_none defaults _ hpost hupdate
      exact .inr ⟨rfl, hkept, hanswer.imp And.left And.left⟩

/-- An update, one that is refused for its second member, a calculation with a precision of its own,
and an update of another setting. -/
def mixedHistory : List Request := [
  sending "POST" .settings (.obj [("precision", .str "fp16"), ("dark_mode", .bool true)]),
  sending "POST" .settings (.obj [("precision", .str "int8"), ("framework", .str "caffe")]),
  sending "POST" .calculate (.obj [("precision", .str "int8")]),
  sending "POST" .settings (.obj [("dark_mode", .bool false)])]

attribute [local instance] Machine.small

theorem settings_after_requests_mixedHistory :
    (reading .settings).Asks "GET" .settings ∧
      UserSetting.all.map (fun setting => lastGiven? setting mixedHistory) =
        [none, some (.bool false), none, some (.str "fp16"), none] ∧
      (respond .standard (reading .settings)
        (.after .standard freshVisit mixedHistory)).1.ShowsAfter .standard none mixedHistory := by
  have hasks : (reading .settings).Asks "GET" .settings := by decide +kernel
  obtain ⟨-, hrequests⟩ := settings_after_requests .standard .counting mixedHistory
  obtain ⟨hget, -⟩ := hrequests (reading .settings) _ rfl
  exact ⟨hasks, by decide +kernel, (hget hasks).1⟩

end LayerStack.Service
