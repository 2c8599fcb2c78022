import LayerStack.Framework
import LayerStack.Report.Memory
import LayerStack.Service.Request

/-! The settings of a user, kept in a session.  A stored value that is no longer valid is passed
over for the default, and an update is stored as a whole or not at all. -/

namespace LayerStack.Service

/-- What the service falls back on where a user has set nothing.  Nothing checks these values. -/
structure Defaults where
  language : Value
  framework : Value
  precision : Value
  memoryMode : Value

/-- The values of a service that is not configured. -/
def Defaults.standard : Defaults where
  language := .str Language.en.code
  framework := .str Framework.pytorch.name
  precision := .str Precision.fp32.name
  memoryMode := .str MemoryMode.inference.name

/-- The stored values of a user, by the names of the settings. -/
abbrev Session := Members

inductive UserSetting where
  | language
  | darkMode
  | framework
  | precision
  | memoryMode
  deriving DecidableEq, Repr

namespace UserSetting

def all : List UserSetting := [.language, .darkMode, .framework, .precision, .memoryMode]

def name : UserSetting → String
  | .language => "language"
  | .darkMode => "dark_mode"
  | .framework => "framework"
  | .precision => "precision"
  | .memoryMode => "memory_mode"

def ofName? (s : String) : Option UserSetting := all.find? fun setting => decide (setting.name = s)

/-- Whether a value is valid for a setting.  Languages and precisions are looked up in tables. -/
def accepts (setting : UserSetting) (value : Value) : Except Fault Bool :=
  match setting with
  | .language => (value.lookUp Language.ofCode?).map Option.isSome
  | .precision => (value.lookUp Precision.ofName?).map Option.isSome
  | .framework => .ok (value.named? Framework.ofName?).isSome
  | .memoryMode => .ok (value.named? MemoryMode.ofName?).isSome
  | .darkMode => .ok (match value with
    | .bool _ => true
    | _ => false)

/-- The value of a setting that is not set, for a visitor with a preferred language or without. -/
def initial (defaults : Defaults) (preferred : Option String) : UserSetting → Value
  | .language =>
    match preferred.filter fun tag => tag ≠ "" with
    | some tag => .str tag
    | none => defaults.language
  | .darkMode => .bool false
  | .framework => defaults.framework
  | .precision => defaults.precision
  | .memoryMode => defaults.memoryMode

/-- The value that is stored for a setting, if it is valid. -/
def stored? (setting : UserSetting) (session : Session) : Except Fault (Option Value) :=
  match session.get? setting.name with
  | none | some .null => .ok none
  | some value => (setting.accepts value).map fun valid => if valid then some value else none

/-- The value of a setting: the stored one if it is valid, else the default. -/
def read (setting : UserSetting) (defaults : Defaults) (preferred : Option String)
    (session : Session) : Except Fault Value :=
  (setting.stored? session).map fun stored => stored.getD (setting.initial defaults preferred)

/-- The values of all settings by name. -/
def readAll (defaults : Defaults) (preferred : Option String) (session : Session) :
    Except Fault Members :=
  all.mapM fun setting => do
    return (setting.name, ← setting.read defaults preferred session)

/-- Checks the members of an update in order. -/
def checkAll : Members → Except Fault Unit
  | [] => .ok ()
  | (key, value) :: rest =>
    match key.string?.bind ofName? with
    | none => .error (.unknownSetting key)
    | some setting =>
      match setting.accepts value with
      | .error fault => .error fault
      | .ok false => .error (.invalidSetting setting.name value)
      | .ok true => checkAll rest

/-- The session with new values stored, if the update is an object of valid settings. -/
def store (session : Session) (update : Value) : Except Fault Session :=
  match update with
  | .obj members =>
    (checkAll members).map fun _ =>
      members.foldl (fun session member => Entries.set session member.1 member.2) session
  | _ => .error .settingsNotAnObject

end UserSetting

end LayerStack.Service
