import LayerStack.Proofs.Downloads
import LayerStack.Proofs.Settings.History

/-! The options of a calculation and of an export.  An option that is left out stands for the value
that was last given to its setting, whatever the session holds for an option that is given. -/

namespace LayerStack

/-- Whether a value is a text that is not empty. -/
def Value.isName : Value → Bool
  | .str s => !s.isEmpty
  | _ => false

namespace Service

/-! ### Options -/

/-- The options in the body of a request for a route, with the settings that stand in for them. -/
def Route.options : Route → List (String × UserSetting)
  | .calculate => [("precision", .precision), ("mode", .memoryMode)]
  | .code | .download => [("framework", .framework)]
  | .page | .layerTypes | .settings | .groups => []

theorem Route.nodup_options (route : Route) : (route.options.map (·.1)).Nodup := by
  cases route <;> decide

theorem Route.options_settings (route : Route) {option : String × UserSetting}
    (h : option ∈ route.options) : option.2 ≠ .language ∧ option.2 ≠ .darkMode := by
  cases route <;> revert option <;> decide

/-- No option has the name of another part of a body. -/
theorem Route.options_keys (route : Route) {option : String × UserSetting}
    (h : option ∈ route.options) :
    Text.ofString option.1 ≠ Text.ofString "layers" ∧
      Text.ofString option.1 ≠ Text.ofString "context" := by
  cases route <;> revert option <;> decide

/-- Whether an option is absent, null or empty. -/
def isOmitted (data : Members) (key : String) : Bool :=
  match data.get? key with
  | none | some .null => true
  | some (.str s) => s.isEmpty
  | some _ => false

/-- The members with a value for each option that is omitted. -/
def fillIn (value : UserSetting → Value) (options : List (String × UserSetting)) (data : Members) :
    Members :=
  options.foldl (fun data option =>
    if isOmitted data option.1 then data.set option.1 (value option.2) else data) data

theorem readOption_of_omitted {data : Members} {key : String} (h : isOmitted data key = true)
    (fallback : Except Fault Value) : readOption data key fallback = fallback := by
  unfold isOmitted at h
  unfold readOption
  split <;> simp_all

theorem readOption_of_given {data : Members} {key : String} (h : isOmitted data key = false)
    (fallback other : Except Fault Value) :
    readOption data key fallback = readOption data key other := by
  unfold isOmitted at h
  unfold readOption
  split <;> simp_all

theorem readOption_congr {data other : Members} {key : String}
    (h : data.get? key = other.get? key) (fallback : Except Fault Value) :
    readOption data key fallback = readOption other key fallback := by
  simp only [readOption, h]

theorem readOption_set {value : Value} (h : value.isName = true) (data : Members) (key : String)
    (fallback : Except Fault Value) :
    readOption (data.set key value) key fallback = .ok value := by
  cases value <;> simp_all [readOption, Value.isName]

section FillIn

variable {value : UserSetting → Value} {options : List (String × UserSetting)} {data : Members}

theorem get?_fillIn_of_ne {key : Text} (h : ∀ option ∈ options, Text.ofString option.1 ≠ key) :
    (fillIn value options data).get? key = data.get? key := by
  induction options generalizing data with
  | nil => rfl
  | cons first rest ih =>
    rw [fillIn, List.foldl_cons, ← fillIn, ih fun option hmem => h option (.tail _ hmem)]
    split
    · exact Entries.get?_set_of_ne _ _ (h first List.mem_cons_self)
    · rfl

theorem get?_fillIn_of_given {key : String} (h : isOmitted data key = false) :
    (fillIn value options data).get? key = data.get? key := by
  induction options generalizing data with
  | nil => rfl
  | cons first rest ih =>
    rw [fillIn, List.foldl_cons, ← fillIn]
    cases homitted : isOmitted data first.1 with
    | false => simpa using ih h
    | true =>
      have hne : Text.ofString first.1 ≠ Text.ofString key := fun heq => by
        rw [Text.ofString_inj.mp heq, h] at homitted
        simp at homitted
      have hset := Entries.get?_set_of_ne data (value first.2) hne
      have hgiven : isOmitted (data.set first.1 (value first.2)) key = false := by
        rwa [isOmitted, hset]
      simp [ih hgiven, hset]

/-- An option that is filled in is read as the given one, or else as the value for it. -/
theorem readOption_fillIn (hnodup : (options.map (·.1)).Nodup) {option : String × UserSetting}
    (hmem : option ∈ options) (hname : (value option.2).isName = true)
    (fallback : Except Fault Value) :
    readOption (fillIn value options data) option.1 fallback =
      readOption data option.1 (.ok (value option.2)) := by
  induction options generalizing data with
  | nil => simp at hmem
  | cons first rest ih =>
    rw [fillIn, List.foldl_cons, ← fillIn]
    obtain ⟨hfresh, hrest⟩ := List.nodup_cons.mp hnodup
    rcases List.mem_cons.mp hmem with rfl | hmem
    · have hkept : ∀ other ∈ rest, Text.ofString other.1 ≠ Text.ofString option.1 := by
        intro other hother heq
        exact hfresh (List.mem_map.mpr ⟨other, hother, Text.ofString_inj.mp heq⟩)
      rw [readOption_congr (get?_fillIn_of_ne hkept)]
      cases homitted : isOmitted data option.1 with
      | true => simp [readOption_set hname, readOption_of_omitted homitted]
      | false => simpa using readOption_of_given homitted _ _
    · have hne : Text.ofString first.1 ≠ Text.ofString option.1 := fun heq =>
        hfresh (List.mem_map.mpr ⟨option, hmem, (Text.ofString_inj.mp heq).symm⟩)
      rw [ih hrest hmem]
      refine readOption_congr ?_ _
      split
      · exact Entries.get?_set_of_ne _ _ hne
      · rfl

end FillIn

/-! ### Settings that stand in for options -/

theorem UserSetting.Valid.isName {setting : UserSetting} {value : Value} (h : setting.Valid value)
    (hsetting : setting ≠ .darkMode) : value.isName = true := by
  have hvalues : ∀ setting ∈ UserSetting.all, setting ≠ .darkMode →
      ∀ value ∈ setting.values, value.isName = true := by decide
  exact hvalues setting setting.mem_all hsetting value h

/-- The value that was last given to a setting, or else the one that it has for a visitor who
prefers no language. -/
def saved (defaults : Defaults) (requests : List Request) (setting : UserSetting) : Value :=
  (lastGiven? setting requests).getD (setting.initial defaults none)

/-- Only the language depends on what the visitor prefers. -/
theorem initial_eq_of_ne {setting : UserSetting} (h : setting ≠ .language) (defaults : Defaults)
    (preferred other : Option String) :
    setting.initial defaults preferred = setting.initial defaults other := by
  cases setting <;> first | rfl | exact absurd rfl h

theorem setting_after [Machine] {which : UserSetting} (hwhich : which ≠ .language)
    (defaults : Defaults) (ids : IdSource) (requests : List Request) (request : Request) :
    setting defaults request (.after defaults ⟨[], ids⟩ requests) which =
      .ok (saved defaults requests which) := by
  rw [setting, UserSetting.read_eq_ok fun _ => not_noKey_after defaults requests ids,
    UserSetting.shown, held?_after, saved, initial_eq_of_ne hwhich defaults request.preferred none]

/-! ### Answers -/

theorem respond_calculate [Machine] {defaults : Defaults} {request : Request}
    (h : request.Asks "POST" .calculate) (visit : Visit) :
    respond defaults request visit =
      (.ofResult (calculateAnswer defaults request visit).1,
        ⟨visit.session, (calculateAnswer defaults request visit).2⟩) :=
  respond_of_asks h defaults visit

/-- Another request, in a visit with another session, has the same layers and the same context for a
route, and its options are read as the same values. -/
structure SameReading (defaults : Defaults) (route : Route) (request other : Request)
    (visit : Visit) (session : Session) (data members : Members) : Prop where
  body : payload request = .ok data
  otherBody : payload other = .ok members
  layers : members.get? "layers" = data.get? "layers"
  context : members.get? "context" = data.get? "context"
  options : ∀ option ∈ route.options,
    readOption members option.1 (setting defaults other ⟨session, visit.ids⟩ option.2) =
      readOption data option.1 (setting defaults request visit option.2)

namespace SameReading

variable {defaults : Defaults} {request other : Request} {visit : Visit} {session : Session}
  {data members : Members}

theorem calculateAnswer [Machine]
    (h : SameReading defaults .calculate request other visit session data members) :
    (Service.calculateAnswer defaults other ⟨session, visit.ids⟩).1 =
      (Service.calculateAnswer defaults request visit).1 := by
  have hprecision := h.options ("precision", .precision) (by decide)
  have hmode := h.options ("mode", .memoryMode) (by decide)
  simp only at hprecision hmode
  simp only [Service.calculateAnswer, h.body, h.otherBody, readModel, h.layers, hprecision, hmode,
    readShape, h.context]

theorem exporting {route : Route} (hroute : route.options = [("framework", .framework)])
    (h : SameReading defaults route request other visit session data members)
    (answer : Value → Program → Response) :
    Service.exporting answer defaults other ⟨session, visit.ids⟩ =
      Service.exporting answer defaults request visit := by
  have hframework := h.options ("framework", .framework) (by simp [hroute])
  simp only at hframework
  simp only [Service.exporting, h.body, h.otherBody, readModel, h.layers, hframework]

theorem respond [Machine] {route : Route} (hroute : route ∈ [Route.calculate, .code, .download])
    (hrequest : request.Asks "POST" route) (hother : other.Asks "POST" route)
    (h : SameReading defaults route request other visit session data members) :
    (Service.respond defaults other ⟨session, visit.ids⟩).1 =
      (Service.respond defaults request visit).1 := by
  simp only [List.mem_cons, List.not_mem_nil, or_false] at hroute
  rcases hroute with rfl | rfl | rfl
  · rw [respond_calculate hother, respond_calculate hrequest, h.calculateAnswer]
  · rw [respond_code hother, respond_code hrequest, codeAnswer_eq, h.exporting rfl]
  · rw [respond_download hother, respond_download hrequest, downloadAnswer_eq, h.exporting rfl]

end SameReading

theorem valid_saved {defaults : Defaults} (h : defaults.Valid) (requests : List Request)
    (setting : UserSetting) : setting.Valid (saved defaults requests setting) := by
  unfold saved
  cases hgiven : lastGiven? setting requests with
  | none => exact UserSetting.valid_initial h (reading .settings) setting
  | some value => exact valid_lastGiven? hgiven

/-- A body with its omitted options filled in reads as the body after the updates. -/
theorem sameReading_fillIn [Machine] {defaults : Defaults} (hdefaults : defaults.Valid)
    (ids : IdSource) (requests : List Request) {route : Route} {request filled : Request}
    {data : Members} (hdata : payload request = .ok data)
    (hfilled : payload filled = .ok (fillIn (saved defaults requests) route.options data))
    (session : Session) :
    SameReading defaults route request filled (.after defaults ⟨[], ids⟩ requests) session data
      (fillIn (saved defaults requests) route.options data) where
  body := hdata
  otherBody := hfilled
  layers := get?_fillIn_of_ne fun option hmem => (route.options_keys hmem).1
  context := get?_fillIn_of_ne fun option hmem => (route.options_keys hmem).2
  options := by
    intro option hmem
    obtain ⟨hlanguage, hdark⟩ := route.options_settings hmem
    have hname := (valid_saved hdefaults requests option.2).isName hdark
    rw [readOption_fillIn route.nodup_options hmem hname, setting_after hlanguage]

/-- After any requests, a calculation or an export is answered as if each option that is omitted
held the value that the last accepted update gave its setting, or else the default; such a value is
read for it, and a text that is given is read as it is.  So no session changes the answer to options
that are given, and they are not stored. -/
theorem omitted_options_as_saved [Machine] {defaults : Defaults} (hdefaults : defaults.Valid)
    (ids : IdSource) (requests : List Request) {route : Route}
    (hroute : route ∈ [Route.calculate, .code, .download]) {request filled : Request}
    {data : Members} {visit : Visit} (hvisit : visit = .after defaults ⟨[], ids⟩ requests)
    (hrequest : request.Asks "POST" route) (hdata : payload request = .ok data)
    (hfilled : filled.Asks "POST" route)
    (hfilledData : payload filled = .ok (fillIn (saved defaults requests) route.options data)) :
    (∀ session, (respond defaults filled ⟨session, visit.ids⟩).1 =
        (respond defaults request visit).1) ∧
      (∀ option ∈ route.options,
        (isOmitted data option.1 = true →
          readOption data option.1 (setting defaults request visit option.2) =
            .ok (saved defaults requests option.2)) ∧
        (isOmitted data option.1 = false →
          (fillIn (saved defaults requests) route.options data).get? option.1 =
            data.get? option.1) ∧
        ∀ s : Text, data.get? option.1 = some (.str s) → s.isEmpty = false →
          readOption data option.1 (setting defaults request visit option.2) = .ok (.str s)) ∧
      (respond defaults request visit).2.session = visit.session := by
  subst hvisit
  refine ⟨fun session => ?_, fun option hmem => ⟨fun homitted => ?_, get?_fillIn_of_given, ?_⟩, ?_⟩
  · exact (sameReading_fillIn hdefaults ids requests hdata hfilledData session).respond hroute
      hrequest hfilled
  · rw [readOption_of_omitted homitted, setting_after (route.options_settings hmem).1]
  · intro s hgiven hnonempty
    simp [readOption, hgiven, hnonempty]
  · refine session_respond_of_not_update defaults request _ fun hupdate => ?_
    obtain rfl : route = .settings := Destination.view.inj (hrequest.2.symm.trans hupdate.2)
    simp at hroute

/-- A body with an empty option and one that is null. -/
def omittingBody : Members := [
  ("layers", .list [.obj [("type", .str "gru")]]),
  ("precision", .str ""),
  ("mode", .null)]

def filledBody : Members := [
  ("layers", .list [.obj [("type", .str "gru")]]),
  ("precision", .str "fp16"),
  ("mode", .str "inference")]

attribute [local instance] Machine.small

theorem omitted_options_as_saved_mixedHistory :
    Defaults.standard.Valid ∧
      payload (sending "POST" .calculate (.obj omittingBody)) = .ok omittingBody ∧
      payload (sending "POST" .calculate (.obj filledBody)) =
        .ok (fillIn (saved .standard mixedHistory) Route.calculate.options omittingBody) ∧
      ∀ session, (respond .standard (sending "POST" .calculate (.obj filledBody))
          ⟨session, (Visit.after .standard freshVisit mixedHistory).ids⟩).1 =
        (respond .standard (sending "POST" .calculate (.obj omittingBody))
          (.after .standard freshVisit mixedHistory)).1 := by
  have hdata : payload (sending "POST" .calculate (.obj omittingBody)) = .ok omittingBody :=
    eq_ok_of_toOption (by decide +kernel)
  have hfilled : payload (sending "POST" .calculate (.obj filledBody)) =
      .ok (fillIn (saved .standard mixedHistory) Route.calculate.options omittingBody) :=
    eq_ok_of_toOption (by decide +kernel)
  obtain ⟨hanswer, -⟩ := omitted_options_as_saved Defaults.valid_standard .counting mixedHistory
    (by simp) rfl (by decide +kernel) hdata (by decide +kernel) hfilled
  exact ⟨Defaults.valid_standard, hdata, hfilled, hanswer⟩

end Service

end LayerStack
