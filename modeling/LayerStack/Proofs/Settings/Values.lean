import LayerStack.Proofs.Refusals

/-! The values of settings: which of them a setting can have, how an update is checked member by
member, and what is read from a session.  A check ends in a fault of its own for a list or an object
where values are looked up in a table, in an update as in a session that holds one. -/

namespace LayerStack

/-- Whether a value is a list or an object. -/
def Value.isNested : Value → Bool
  | .list _ | .obj _ => true
  | _ => false

/-- A value names something in a table of all names exactly if it is the text of one of them. -/
theorem Value.isSome_named? {α : Type} {find : String → Option α} {name : α → String}
    (hfind : ∀ s a, find s = some a ↔ name a = s) (all : List α) (hall : ∀ a, a ∈ all)
    (value : Value) :
    (value.named? find).isSome = decide (value ∈ all.map fun a => Value.str (name a)) := by
  rw [Bool.eq_iff_iff, decide_eq_true_eq, Option.isSome_iff_exists, List.mem_map]
  constructor
  · rintro ⟨a, ha⟩
    exact ⟨a, hall a, ((named?_eq_some_iff hfind).mp ha).symm⟩
  · rintro ⟨a, -, rfl⟩
    exact ⟨a, (named?_eq_some_iff hfind).mpr rfl⟩

/-- A list or an object cannot be looked up, and any other value is found if it is a name. -/
theorem Value.isSome_lookUp {α : Type} {find : String → Option α} {name : α → String}
    (hfind : ∀ s a, find s = some a ↔ name a = s) (all : List α) (hall : ∀ a, a ∈ all)
    (value : Value) :
    (value.lookUp find).map Option.isSome =
      if value.isNested then .error (.notAKey value)
      else .ok (decide (value ∈ all.map fun a => Value.str (name a))) := by
  have hlookUp : value.lookUp find =
      if value.isNested then .error (.notAKey value) else .ok (value.named? find) := by
    cases value <;> rfl
  rw [hlookUp]
  split
  · rfl
  · exact congrArg Except.ok (isSome_named? hfind all hall value)

theorem Language.ofCode?_eq_some_iff (s : String) (language : Language) :
    ofCode? s = some language ↔ language.code = s :=
  find?_name_eq_some_iff ofCode?_code s language

theorem Precision.ofName?_eq_some_iff (s : String) (precision : Precision) :
    ofName? s = some precision ↔ precision.name = s :=
  find?_name_eq_some_iff ofName?_name s precision

theorem MemoryMode.ofName?_eq_some_iff (s : String) (mode : MemoryMode) :
    ofName? s = some mode ↔ mode.name = s :=
  find?_name_eq_some_iff ofName?_name s mode

/-- The faults that are reported of an update of settings. -/
def Fault.IsSettings : Fault → Prop
  | .settingsNotAnObject | .unknownSetting _ | .invalidSetting .. => True
  | _ => False

theorem Fault.IsSettings.status? {fault : Fault} (h : fault.IsSettings) :
    fault.status? = some 400 := by
  cases fault <;> simp_all [IsSettings, Fault.status?]

namespace Service

namespace UserSetting

theorem mem_all (setting : UserSetting) : setting ∈ all := by cases setting <;> decide

/-! ### Values -/

/-- The values that a setting can have. -/
def values : UserSetting → List Value
  | .language => Language.all.map fun language => .str language.code
  | .darkMode => [.bool false, .bool true]
  | .framework => Framework.all.map fun framework => .str framework.name
  | .precision => Precision.all.map fun precision => .str precision.name
  | .memoryMode => MemoryMode.all.map fun mode => .str mode.name

def Valid (setting : UserSetting) (value : Value) : Prop := value ∈ setting.values

instance (setting : UserSetting) (value : Value) : Decidable (setting.Valid value) :=
  inferInstanceAs (Decidable (value ∈ setting.values))

/-- Whether the values of a setting are looked up in a table. -/
def isLookedUp : UserSetting → Bool
  | .language | .precision => true
  | .darkMode | .framework | .memoryMode => false

/-- A value that cannot be looked up for a setting. -/
def NoKey (setting : UserSetting) (value : Value) : Prop :=
  setting.isLookedUp = true ∧ value.isNested = true

instance (setting : UserSetting) (value : Value) : Decidable (setting.NoKey value) :=
  inferInstanceAs (Decidable (_ ∧ _))

theorem not_valid_null (setting : UserSetting) : ¬ setting.Valid .null := by
  cases setting <;> decide

theorem Valid.not_noKey {setting : UserSetting} {value : Value} (h : setting.Valid value) :
    ¬ setting.NoKey value := by
  rintro ⟨-, hnested⟩
  cases setting <;> simp only [Valid, values, List.mem_map, List.mem_cons, List.not_mem_nil] at h
  case darkMode => rcases h with rfl | rfl | h <;> simp_all [Value.isNested]
  all_goals
    obtain ⟨_, -, rfl⟩ := h
    simp [Value.isNested] at hnested

/-- A value is looked up or compared: what cannot be looked up is a fault, and anything else is
valid or not. -/
theorem accepts_eq (setting : UserSetting) (value : Value) :
    setting.accepts value =
      if setting.NoKey value then .error (.notAKey value)
      else .ok (decide (setting.Valid value)) := by
  cases setting with
  | language =>
    have h := Value.isSome_lookUp Language.ofCode?_eq_some_iff
      Language.all (fun language => by cases language <;> decide) value
    simp [accepts, h, NoKey, isLookedUp, Valid, values]
  | precision =>
    have h := Value.isSome_lookUp Precision.ofName?_eq_some_iff
      Precision.all (fun precision => by cases precision <;> decide) value
    simp [accepts, h, NoKey, isLookedUp, Valid, values]
  | framework =>
    have h := Value.isSome_named? Framework.ofName?_eq_some_iff
      Framework.all (fun framework => by cases framework <;> decide) value
    simp [accepts, NoKey, isLookedUp, h, Valid, values]
  | memoryMode =>
    have h := Value.isSome_named? MemoryMode.ofName?_eq_some_iff
      MemoryMode.all (fun mode => by cases mode <;> decide) value
    simp [accepts, NoKey, isLookedUp, h, Valid, values]
  | darkMode =>
    cases value with
    | bool b => cases b <;> simp [accepts, NoKey, isLookedUp, Valid, values]
    | _ => simp [accepts, NoKey, isLookedUp, Valid, values]

/-! ### Updates -/

/-- A member of an update that is a setting with a valid value. -/
def ValidMember (member : Text × Value) : Prop :=
  ∃ setting ∈ all, member.1 = Text.ofString setting.name ∧ setting.Valid member.2

instance (member : Text × Value) : Decidable (ValidMember member) :=
  inferInstanceAs (Decidable (∃ setting ∈ all, _ ∧ _))

theorem ofName?_eq_some_iff (s : String) (setting : UserSetting) :
    ofName? s = some setting ↔ setting.name = s :=
  find?_name_eq_some_iff (fun setting => by cases setting <;> decide) s setting

theorem named_eq_some_iff {key : Text} {setting : UserSetting} :
    key.string?.bind ofName? = some setting ↔ key = Text.ofString setting.name := by
  rw [Option.bind_eq_some_iff]
  constructor
  · rintro ⟨s, hs, hname⟩
    rw [(ofName?_eq_some_iff s setting).mp hname, ← Text.string?_eq_some_iff.mp hs]
  · rintro rfl
    exact ⟨setting.name, Text.string?_ofString _, (ofName?_eq_some_iff _ _).mpr rfl⟩

theorem name_inj {setting other : UserSetting} (h : setting.name = other.name) :
    setting = other := by
  have hname := (ofName?_eq_some_iff _ setting).mpr rfl
  rw [h, (ofName?_eq_some_iff _ other).mpr rfl] at hname
  exact (Option.some.inj hname).symm

theorem validMember_name {setting : UserSetting} {value : Value} :
    ValidMember (Text.ofString setting.name, value) ↔ setting.Valid value := by
  constructor
  · rintro ⟨other, -, hname, hvalid⟩
    obtain rfl := name_inj (Text.ofString_inj.mp hname)
    exact hvalid
  · exact fun h => ⟨setting, mem_all setting, rfl, h⟩

/-- What is wrong with a member that is not valid. -/
def memberFault (member : Text × Value) : Fault :=
  match member.1.string?.bind ofName? with
  | none => .unknownSetting member.1
  | some setting =>
    if setting.NoKey member.2 then .notAKey member.2 else .invalidSetting setting.name member.2

theorem memberFault_of_noKey {member : Text × Value} {setting : UserSetting}
    (hname : member.1 = Text.ofString setting.name) (h : setting.NoKey member.2) :
    memberFault member = .notAKey member.2 := by
  simp only [memberFault, named_eq_some_iff.mpr hname, h, if_true]

theorem isSettings_memberFault {member : Text × Value}
    (h : ∀ setting : UserSetting, member.1 = Text.ofString setting.name →
      ¬ setting.NoKey member.2) :
    (memberFault member).IsSettings := by
  unfold memberFault
  split
  · trivial
  next setting hname =>
    rw [if_neg (h setting (named_eq_some_iff.mp hname))]
    trivial

theorem checkAll_cons (member : Text × Value) (rest : Members) :
    checkAll (member :: rest) =
      if ValidMember member then checkAll rest else .error (memberFault member) := by
  obtain ⟨key, value⟩ := member
  rw [checkAll]
  cases hname : key.string?.bind ofName? with
  | none =>
    have hunknown : ¬ ValidMember (key, value) := by
      rintro ⟨setting, -, hkey, -⟩
      simp [named_eq_some_iff.mpr hkey] at hname
    simp [hunknown, memberFault, hname]
  | some setting =>
    have hmember : ValidMember (key, value) ↔ setting.Valid value := by
      rw [named_eq_some_iff.mp hname]
      exact validMember_name
    simp only [accepts_eq, hmember]
    by_cases hkey : setting.NoKey value
    · have hinvalid : ¬ setting.Valid value := fun h => h.not_noKey hkey
      simp [hkey, hinvalid, memberFault, hname]
    · by_cases hvalid : setting.Valid value <;> simp [hkey, hvalid, memberFault, hname]

/-- An update is accepted exactly if all of its members are valid. -/
theorem checkAll_eq_ok {members : Members} :
    checkAll members = .ok () ↔ ∀ member ∈ members, ValidMember member := by
  induction members with
  | nil => simp [checkAll]
  | cons member rest ih =>
    rw [checkAll_cons]
    by_cases h : ValidMember member <;> simp [h, ih]

/-- What is wrong with an update is what is wrong with its first member that is not valid. -/
theorem checkAll_eq_error {members : Members} {fault : Fault} :
    checkAll members = .error fault ↔
      ComesTo (fun before member => (∀ other ∈ before, ValidMember other) ∧
        ¬ ValidMember member ∧ fault = memberFault member) members := by
  induction members with
  | nil => simp [checkAll]
  | cons member rest ih =>
    rw [checkAll_cons, comesTo_cons]
    by_cases h : ValidMember member
    · simp [h, ih]
    · -- The check ends at this member, so that it does not come to any later one.
      have hrest : ¬ ComesTo (fun before item => (∀ other ∈ member :: before, ValidMember other) ∧
          ¬ ValidMember item ∧ fault = memberFault item) rest := by
        rintro ⟨before, item, -, -, hbefore, -⟩
        exact h (hbefore member List.mem_cons_self)
      rw [if_neg h, or_iff_left hrest]
      simp [h, eq_comm]

/-! ### Sessions -/

/-- The value that a session holds for a setting, if it is a valid one. -/
def held? (setting : UserSetting) (session : Session) : Option Value :=
  (session.get? setting.name).filter fun value => decide (setting.Valid value)

theorem held?_of_valid {setting : UserSetting} {session : Session}
    (h : ∀ member ∈ session, ValidMember member) :
    setting.held? session = session.get? setting.name := by
  cases hget : session.get? (Text.ofString setting.name) with
  | none => simp [held?, hget]
  | some value => simp [held?, hget, validMember_name.mp (h _ (Entries.mem_of_get? hget))]

/-- A session with members set in it, one after the other. -/
def putAll (session : Session) (members : Members) : Session :=
  members.foldl (fun session member => Entries.set session member.1 member.2) session

theorem validMember_of_mem_putAll {session : Session} {members : Members}
    (hsession : ∀ member ∈ session, ValidMember member)
    (hmembers : ∀ member ∈ members, ValidMember member) :
    ∀ member ∈ putAll session members, ValidMember member := by
  intro member hmem
  rcases Entries.mem_foldl_set hmem with hold | hnew
  · exact hsession member hold
  · exact hmembers member hnew

/-- The value that is shown for a setting. -/
def shown (defaults : Defaults) (preferred : Option String) (session : Session)
    (setting : UserSetting) : Value :=
  (setting.held? session).getD (setting.initial defaults preferred)

/-- What has to hold for the settings of a session to be shown: all that it holds for them can be
looked up. -/
def Showable (session : Session) : Prop :=
  ∀ (setting : UserSetting) (value : Value),
    session.get? setting.name = some value → ¬ setting.NoKey value

section Read

variable {setting : UserSetting} {session : Session} {defaults : Defaults}
  {preferred : Option String}

theorem stored?_eq_ok
    (h : ∀ value, session.get? setting.name = some value → ¬ setting.NoKey value) :
    setting.stored? session = .ok (setting.held? session) := by
  unfold stored? held?
  split
  next hget => simp [hget]
  next hget => simp [hget, Option.filter, setting.not_valid_null]
  next value _ hget => simp [accepts_eq, h value hget, Except.map, hget, Option.filter]

theorem stored?_eq_error {value : Value} (hget : session.get? setting.name = some value)
    (h : setting.NoKey value) : setting.stored? session = .error (.notAKey value) := by
  have hnull : value ≠ .null := by
    rintro rfl
    simp [NoKey, Value.isNested] at h
  unfold stored?
  split <;> simp_all [accepts_eq, Except.map]

theorem read_eq_ok
    (h : ∀ value, session.get? setting.name = some value → ¬ setting.NoKey value) :
    setting.read defaults preferred session = .ok (setting.shown defaults preferred session) := by
  rw [read, stored?_eq_ok h]
  rfl

theorem read_eq_error {value : Value} (hget : session.get? setting.name = some value)
    (h : setting.NoKey value) :
    setting.read defaults preferred session = .error (.notAKey value) := by
  rw [read, stored?_eq_error hget h]
  rfl

/-- A setting that cannot be read fails its request. -/
theorem fails_read {fault : Fault} (h : setting.read defaults preferred session = .error fault) :
    fault.status? = none := by
  by_cases hkeys : ∀ value, session.get? setting.name = some value → ¬ setting.NoKey value
  · simp [read_eq_ok hkeys] at h
  · obtain ⟨value, hget, hno⟩ : ∃ value, _ ∧ setting.NoKey value := by simpa using hkeys
    obtain rfl : .notAKey value = fault := by simpa [read_eq_error hget hno] using h
    rfl

/-- The settings of a session are all read if they can be shown. -/
theorem readAll_eq_ok (h : Showable session) :
    readAll defaults preferred session = .ok (all.map fun setting =>
      (Text.ofString setting.name, setting.shown defaults preferred session)) := by
  rw [readAll, mapM_eq_ok, List.forall₂_map_right_iff, List.forall₂_same]
  intro setting _
  simp [read_eq_ok (h setting)]

theorem fails_readAll (h : ¬ Showable session) :
    Fails (readAll defaults preferred session) := by
  obtain ⟨setting, value, hget, hno⟩ :
      ∃ (setting : UserSetting) (value : Value), _ ∧ setting.NoKey value := by
    simpa [Showable] using h
  cases hall : readAll defaults preferred session with
  | ok members =>
    obtain ⟨member, hmember⟩ := exists_of_mapM_eq_ok hall setting.mem_all
    simp [read_eq_error hget hno, bind, Except.bind] at hmember
  | error fault =>
    obtain ⟨other, -, hread⟩ := mapM_eq_error hall
    cases hvalue : other.read defaults preferred session with
    | ok value => simp [hvalue, bind, Except.bind, pure, Except.pure] at hread
    | error cause =>
      obtain rfl : cause = fault := by simpa [hvalue, bind, Except.bind] using hread
      simpa using fails_read hvalue

end Read

end UserSetting

end Service

end LayerStack
