import LayerStack.Proofs.Responses
import LayerStack.Proofs.Settings.Values

/-! How requests for the settings, and updates of them, are answered.  The settings of a session are
shown with valid values and an update is stored or refused as a whole, but a request fails for a
list or an object where values are looked up in a table. -/

namespace LayerStack.Service

open UserSetting (ValidMember Showable putAll)

/-- The answer that shows a value of every setting. -/
def Response.settings (value : UserSetting → Value) : Response :=
  .json 200 (.obj (UserSetting.all.map fun setting =>
    (Text.ofString setting.name, value setting)))

/-- The answer that shows the settings of a session. -/
def Response.ofSession (defaults : Defaults) (preferred : Option String) (session : Session) :
    Response :=
  ofResult ((UserSetting.readAll defaults preferred session).map fun values =>
    .json 200 (.obj values))

section OfSession

variable {defaults : Defaults} {preferred : Option String} {session : Session}

theorem Response.ofSession_of_showable (h : Showable session) :
    ofSession defaults preferred session =
      .settings fun setting => setting.shown defaults preferred session := by
  simp [ofSession, UserSetting.readAll_eq_ok h, Except.map, ofResult, settings]

theorem Response.ofSession_of_not_showable (h : ¬ Showable session) :
    ofSession defaults preferred session = .bare 500 := by
  rw [ofSession, ofResult_map_eq_bare fun values => by simp]
  exact UserSetting.fails_readAll h

end OfSession

/-- Defaults that are valid values of their settings. -/
structure Defaults.Valid (defaults : Defaults) : Prop where
  language : UserSetting.language.Valid defaults.language
  framework : UserSetting.framework.Valid defaults.framework
  precision : UserSetting.precision.Valid defaults.precision
  memoryMode : UserSetting.memoryMode.Valid defaults.memoryMode

theorem Defaults.valid_standard : Defaults.standard.Valid where
  language := by decide
  framework := by decide
  precision := by decide
  memoryMode := by decide

namespace UserSetting

theorem valid_initial {defaults : Defaults} (h : defaults.Valid) (request : Request)
    (setting : UserSetting) : setting.Valid (setting.initial defaults request.preferred) := by
  have hdark : UserSetting.darkMode.Valid (.bool false) := by decide
  cases setting with
  | language =>
    rw [initial]
    split
    next tag hpreferred =>
      obtain ⟨hmatch, -⟩ := Option.filter_eq_some_iff.mp hpreferred
      obtain ⟨language, hlanguage, rfl⟩ := List.mem_map.mp (request.bestMatch_mem hmatch)
      exact List.mem_map_of_mem (f := fun language : Language => Value.str language.code) hlanguage
    next => exact h.language
  | darkMode => exact hdark
  | framework => exact h.framework
  | precision => exact h.precision
  | memoryMode => exact h.memoryMode

theorem valid_shown {defaults : Defaults} (h : defaults.Valid) (request : Request)
    (session : Session) (setting : UserSetting) :
    setting.Valid (setting.shown defaults request.preferred session) := by
  unfold shown
  cases hheld : setting.held? session with
  | none => exact valid_initial h request setting
  | some value => exact of_decide_eq_true (Option.filter_eq_some_iff.mp hheld).2

end UserSetting

/-! ### Updates -/

/-- The members of the update in the body of a request, if all of them are valid. -/
def Request.update? (request : Request) : Option Members :=
  match request.json? with
  | .ok (some (.obj members)) =>
    if ∀ member ∈ members, ValidMember member then some members else none
  | _ => none

/-- The update in the body of a request comes to a value that cannot be looked up, after members
that are valid. -/
def Request.ComesToNoKey (request : Request) : Prop :=
  ∃ members, request.json? = .ok (some (.obj members)) ∧
    ComesTo (fun before member => (∀ other ∈ before, ValidMember other) ∧
      ∃ setting : UserSetting, member.1 = Text.ofString setting.name ∧ setting.NoKey member.2)
      members

theorem Request.update?_eq_some {request : Request} {members : Members} :
    request.update? = some members ↔ request.json? = .ok (some (.obj members)) ∧
      ∀ member ∈ members, ValidMember member := by
  constructor
  · intro h
    unfold update? at h
    split at h
    next given hjson =>
      split at h
      next hvalid =>
        obtain rfl := Option.some.inj h
        exact ⟨hjson, hvalid⟩
      · simp at h
    · simp at h
  · rintro ⟨hjson, hvalid⟩
    simp only [update?, hjson]
    rw [if_pos hvalid]

/-- What cannot be looked up is what the check of the update ends at. -/
theorem Request.ComesToNoKey.checkAll {request : Request} {members : Members}
    (h : request.ComesToNoKey) (hjson : request.json? = .ok (some (.obj members))) :
    ∃ value, UserSetting.checkAll members = .error (.notAKey value) := by
  obtain ⟨given, hgiven, before, member, after, hmembers, hbefore, setting, hname, hno⟩ := h
  obtain rfl : given = members := by simpa [hjson] using hgiven.symm
  have hinvalid : ¬ ValidMember member := by
    rw [show member = (Text.ofString setting.name, member.2) from Prod.ext hname rfl,
      UserSetting.validMember_name]
    exact fun hvalid => hvalid.not_noKey hno
  refine ⟨member.2, UserSetting.checkAll_eq_error.mpr ⟨before, member, after, hmembers, hbefore,
    hinvalid, ?_⟩⟩
  rw [UserSetting.memberFault_of_noKey hname hno]

theorem checkAll_error_cases {request : Request} {members : Members} {fault : Fault}
    (hjson : request.json? = .ok (some (.obj members)))
    (hcheck : UserSetting.checkAll members = .error fault) :
    (fault.IsSettings ∧ ¬ request.ComesToNoKey) ∨
      (fault.status? = none ∧ request.ComesToNoKey) := by
  obtain ⟨before, member, after, hmembers, hbefore, hinvalid, rfl⟩ :=
    UserSetting.checkAll_eq_error.mp hcheck
  by_cases hno : ∃ setting : UserSetting,
      member.1 = Text.ofString setting.name ∧ setting.NoKey member.2
  · obtain ⟨setting, hname, hkey⟩ := hno
    refine .inr ⟨by rw [UserSetting.memberFault_of_noKey hname hkey]; rfl, ?_⟩
    exact ⟨members, hjson, before, member, after, hmembers, hbefore, setting, hname, hkey⟩
  · have hsettings : (UserSetting.memberFault member).IsSettings :=
      UserSetting.isSettings_memberFault fun setting hname hkey => hno ⟨setting, hname, hkey⟩
    refine .inl ⟨hsettings, fun hcomes => ?_⟩
    obtain ⟨value, hvalue⟩ := hcomes.checkAll hjson
    rw [hcheck] at hvalue
    rw [Except.error.inj hvalue] at hsettings
    exact hsettings

section UpdateAnswer

variable (defaults : Defaults) {request : Request} (visit : Visit)

theorem updateAnswer_of_some {members : Members} (h : request.update? = some members) :
    updateAnswer defaults request visit =
      (settingsAnswer defaults request { visit with session := putAll visit.session members },
        { visit with session := putAll visit.session members }) := by
  obtain ⟨hjson, hvalid⟩ := Request.update?_eq_some.mp h
  simp [updateAnswer, hjson, UserSetting.store, UserSetting.checkAll_eq_ok.mpr hvalid, Except.bind,
    Except.map, putAll]

/-- An update that is refused changes nothing; it fails if the body is nested too deep or comes to a
value that cannot be looked up, and its fault is reported otherwise. -/
theorem updateAnswer_of_none (h : request.update? = none) :
    ∃ fault, updateAnswer defaults request visit = (.error fault, visit) ∧
      ((fault.IsSettings ∧ request.json? ≠ .error .bodyTooDeep ∧ ¬ request.ComesToNoKey) ∨
        (fault.status? = none ∧ (request.json? = .error .bodyTooDeep ∨ request.ComesToNoKey))) := by
  cases hjson : request.json? with
  | error fault =>
    obtain rfl := json?_eq_error hjson
    exact ⟨.bodyTooDeep, by simp [updateAnswer, hjson, Except.bind], .inr ⟨rfl, .inl rfl⟩⟩
  | ok body =>
    by_cases hobject : ∃ members, body = some (.obj members)
    · obtain ⟨members, rfl⟩ := hobject
      cases hcheck : UserSetting.checkAll members with
      | ok =>
        have hvalid := UserSetting.checkAll_eq_ok.mp hcheck
        simp [Request.update?_eq_some.mpr ⟨hjson, hvalid⟩] at h
      | error fault =>
        refine ⟨fault, ?_, ?_⟩
        · simp [updateAnswer, hjson, UserSetting.store, hcheck, Except.bind, Except.map]
        · simpa using checkAll_error_cases hjson hcheck
    · have hstore : UserSetting.store visit.session (body.getD .null) =
          .error .settingsNotAnObject := by
        unfold UserSetting.store
        split
        next members hbody =>
          cases body with
          | none => simp at hbody
          | some value => exact absurd ⟨members, by simpa using hbody⟩ hobject
        · rfl
      refine ⟨.settingsNotAnObject, ?_, .inl ⟨trivial, by simp, ?_⟩⟩
      · simp [updateAnswer, hjson, hstore, Except.bind]
      · rintro ⟨members, hmembers, -⟩
        exact hobject ⟨members, Except.ok.inj (hjson ▸ hmembers)⟩

end UpdateAnswer

/-! ### Requests -/

section Requests

variable [Machine] {request : Request} (defaults : Defaults) (visit : Visit)

theorem respond_settings (h : request.Asks "GET" .settings) :
    respond defaults request visit =
      (.ofSession defaults request.preferred visit.session, visit) := by
  have hmethod : request.method ≠ "POST" := by simp [h.1]
  rw [respond_of_asks h, handle]
  simp [hmethod, settingsAnswer, settings, Response.ofSession]

theorem respond_update (h : request.Asks "POST" .settings) :
    respond defaults request visit =
      (Response.ofResult (updateAnswer defaults request visit).1,
        (updateAnswer defaults request visit).2) := by
  rw [respond_of_asks h, handle]
  simp [h.1]

theorem respond_update_of_some {members : Members} (h : request.Asks "POST" .settings)
    (hupdate : request.update? = some members) :
    respond defaults request visit =
      (.ofSession defaults request.preferred (putAll visit.session members),
        { visit with session := putAll visit.session members }) := by
  rw [respond_update defaults visit h, updateAnswer_of_some defaults visit hupdate]
  rfl

theorem respond_update_of_none (h : request.Asks "POST" .settings)
    (hupdate : request.update? = none) :
    (respond defaults request visit).2 = visit ∧
      (((∃ fault, fault.IsSettings ∧ (respond defaults request visit).1 = .report 400 fault) ∧
          request.json? ≠ .error .bodyTooDeep ∧ ¬ request.ComesToNoKey) ∨
        ((respond defaults request visit).1 = .bare 500 ∧
          (request.json? = .error .bodyTooDeep ∨ request.ComesToNoKey))) := by
  obtain ⟨fault, hanswer, hfault⟩ := updateAnswer_of_none defaults visit hupdate
  rw [respond_update defaults visit h, hanswer]
  refine ⟨rfl, ?_⟩
  rcases hfault with ⟨hsettings, hcause⟩ | ⟨hstatus, hcause⟩
  · exact .inl ⟨⟨fault, hsettings, by simp [Response.ofResult, hsettings.status?]⟩, hcause⟩
  · exact .inr ⟨by simp [Response.ofResult, hstatus], hcause⟩

end Requests

theorem Response.settings_ne_bare (value : UserSetting → Value) (status : Nat) :
    settings value ≠ .bare status := by simp [settings]

theorem Response.settings_ne_report (value : UserSetting → Value) (fault : Fault) :
    settings value ≠ report 400 fault := by simp [settings, report]

theorem Response.report_ne_bare (fault : Fault) (status : Nat) :
    report 400 fault ≠ .bare status := by simp [report]

/-- The settings of a session are shown, each with a valid value, exactly if they can be. -/
theorem Response.ofSession_eq_settings_iff {defaults : Defaults} (hdefaults : defaults.Valid)
    (request : Request) (session : Session) :
    (∃ value, (∀ setting : UserSetting, setting.Valid (value setting)) ∧
        ofSession defaults request.preferred session = .settings value) ↔ Showable session := by
  constructor
  · rintro ⟨value, -, hanswer⟩
    by_contra h
    rw [ofSession_of_not_showable h] at hanswer
    exact settings_ne_bare value 500 hanswer.symm
  · intro h
    exact ⟨_, UserSetting.valid_shown hdefaults request session, ofSession_of_showable h⟩

theorem Response.ofSession_eq_bare_iff (defaults : Defaults) (preferred : Option String)
    (session : Session) :
    ofSession defaults preferred session = .bare 500 ↔ ¬ Showable session := by
  constructor
  · intro hanswer h
    rw [ofSession_of_showable h] at hanswer
    exact settings_ne_bare _ 500 hanswer
  · exact ofSession_of_not_showable

theorem Response.ofSession_ne_report (defaults : Defaults) (preferred : Option String)
    (session : Session) (fault : Fault) :
    ofSession defaults preferred session ≠ report 400 fault := by
  by_cases h : Showable session
  · rw [ofSession_of_showable h]
    exact settings_ne_report _ fault
  · rw [ofSession_of_not_showable h]
    exact fun heq => report_ne_bare fault 500 heq.symm

/-- A request for the settings is answered with a valid value for each of them exactly if they can
be shown, and fails otherwise.  An update is answered in the same way if it is an object of valid
settings; if not, its fault is reported, unless its body is nested too deep or comes to a value that
cannot be looked up: then the request fails. -/
theorem settings_answered_iff [Machine] {defaults : Defaults} (hdefaults : defaults.Valid)
    (request : Request) (visit : Visit) :
    (request.Asks "GET" .settings →
      ((∃ value, (∀ setting : UserSetting, setting.Valid (value setting)) ∧
          (respond defaults request visit).1 = .settings value) ↔
        Showable visit.session) ∧
      ((respond defaults request visit).1 = .bare 500 ↔
        ¬ Showable visit.session)) ∧
    (request.Asks "POST" .settings →
      ((∃ value, (∀ setting : UserSetting, setting.Valid (value setting)) ∧
          (respond defaults request visit).1 = .settings value) ↔
        ∃ members, request.update? = some members ∧
          Showable (putAll visit.session members)) ∧
      ((∃ fault, fault.IsSettings ∧ (respond defaults request visit).1 = .report 400 fault) ↔
        request.update? = none ∧ request.json? ≠ .error .bodyTooDeep ∧ ¬ request.ComesToNoKey) ∧
      ((respond defaults request visit).1 = .bare 500 ↔
        request.json? = .error .bodyTooDeep ∨ request.ComesToNoKey ∨
          ∃ members, request.update? = some members ∧
            ¬ Showable (putAll visit.session members))) := by
  refine ⟨fun hget => ?_, fun hpost => ?_⟩
  · rw [respond_settings defaults visit hget]
    exact ⟨Response.ofSession_eq_settings_iff hdefaults request _,
      Response.ofSession_eq_bare_iff _ _ _⟩
  cases hupdate : request.update? with
  | some members =>
    have hjson : request.json? ≠ .error .bodyTooDeep := by
      simp [(Request.update?_eq_some.mp hupdate).1]
    have hkeys : ¬ request.ComesToNoKey := fun h => by
      obtain ⟨hgiven, hvalid⟩ := Request.update?_eq_some.mp hupdate
      obtain ⟨value, hfault⟩ := h.checkAll hgiven
      simp [UserSetting.checkAll_eq_ok.mpr hvalid] at hfault
    rw [respond_update_of_some defaults visit hpost hupdate]
    refine ⟨?_, ?_, ?_⟩
    · simpa using Response.ofSession_eq_settings_iff hdefaults request _
    · simp [Response.ofSession_ne_report]
    · simpa [hjson, hkeys] using Response.ofSession_eq_bare_iff _ _ _
  | none =>
    obtain ⟨-, ⟨⟨fault, hsettings, hanswer⟩, hjson, hkeys⟩ | ⟨hanswer, hcause⟩⟩ :=
      respond_update_of_none defaults visit hpost hupdate
    · rw [hanswer]
      refine ⟨?_, ?_, ?_⟩
      · simp [(Response.settings_ne_report _ fault).symm]
      · simp only [hjson, hkeys, ne_eq, not_false_eq_true, and_self, iff_true]
        exact ⟨fault, hsettings, rfl⟩
      · simp [Response.report_ne_bare, hjson, hkeys]
    · rw [hanswer]
      refine ⟨?_, ?_, ?_⟩
      · simp [(Response.settings_ne_bare _ 500).symm]
      · have hno : ¬ (request.json? ≠ .error .bodyTooDeep ∧ ¬ request.ComesToNoKey) := by tauto
        simp [(Response.report_ne_bare _ 500).symm, hno]
      · tauto

/-- A session that holds a list where languages are looked up. -/
def staleSession : Session := [("language", .list []), ("precision", .str "fp8")]

def repairMembers : Members := [("language", .str "ko"), ("dark_mode", .bool true)]

/-- An update of what cannot be looked up. -/
def repair : Request := sending "POST" .settings (.obj repairMembers)

theorem update?_repair : repair.update? = some repairMembers := by decide +kernel

theorem showable_repaired : Showable (putAll staleSession repairMembers) := by
  have hkeys : ∀ setting ∈ UserSetting.all,
      ∀ value ∈ (putAll staleSession repairMembers).get? setting.name, ¬ setting.NoKey value := by
    decide
  exact fun setting value hget => hkeys setting setting.mem_all value hget

attribute [local instance] Machine.small

theorem settings_answered_iff_repair :
    Defaults.standard.Valid ∧ repair.Asks "POST" .settings ∧
      ∃ value, (∀ setting : UserSetting, setting.Valid (value setting)) ∧
        (respond .standard repair ⟨staleSession, .counting⟩).1 = .settings value := by
  have hasks : repair.Asks "POST" .settings := by decide +kernel
  refine ⟨Defaults.valid_standard, hasks, ?_⟩
  obtain ⟨hshown, -⟩ :=
    (settings_answered_iff Defaults.valid_standard repair ⟨staleSession, .counting⟩).2 hasks
  exact hshown.mpr ⟨_, update?_repair, showable_repaired⟩

/-- An update with a list where precisions are looked up. -/
def unlookable : Request :=
  sending "POST" .settings (.obj [("precision", .list [.str "fp16"])])

/-- Not every request for the settings is answered with them, and not every update that is not
stored is reported. -/
theorem settings_not_always_answered :
    (¬ ∀ (defaults : Defaults) (request : Request) (visit : Visit),
      defaults.Valid → request.Asks "GET" .settings →
        ∃ value, (∀ setting : UserSetting, setting.Valid (value setting)) ∧
          (respond defaults request visit).1 = .settings value) ∧
    ¬ ∀ (defaults : Defaults) (request : Request) (visit : Visit),
      defaults.Valid → request.Asks "POST" .settings → request.update? = none →
        ∃ fault, fault.IsSettings ∧ (respond defaults request visit).1 = .report 400 fault := by
  constructor
  · intro h
    have hasks : (reading .settings).Asks "GET" .settings := by decide +kernel
    obtain ⟨value, -, hshown⟩ :=
      h .standard (reading .settings) ⟨staleSession, .counting⟩ Defaults.valid_standard hasks
    have hstale : ¬ Showable staleSession := fun hshowable =>
      hshowable .language (.list []) (by decide) (by decide)
    rw [respond_settings _ _ hasks] at hshown
    have hfails := (Response.ofSession_eq_bare_iff .standard none staleSession).mpr hstale
    exact Response.settings_ne_bare value 500 (hshown.symm.trans hfails)
  · intro h
    have hasks : unlookable.Asks "POST" .settings := by decide +kernel
    have hupdate : unlookable.update? = none := by decide +kernel
    obtain ⟨fault, -, hreport⟩ :=
      h .standard unlookable freshVisit Defaults.valid_standard hasks hupdate
    have hjson : unlookable.json? = .ok (some (.obj [("precision", .list [.str "fp16"])])) :=
      eq_ok_of_toOption (by decide +kernel)
    have hkeys : unlookable.ComesToNoKey :=
      ⟨_, hjson, [], _, [], rfl, by simp, .precision, rfl, by decide⟩
    obtain ⟨-, ⟨-, -, hno⟩ | ⟨hfails, -⟩⟩ :=
      respond_update_of_none .standard freshVisit hasks hupdate
    · exact hno hkeys
    · rw [hreport] at hfails
      exact Response.report_ne_bare fault 500 hfails

end LayerStack.Service
