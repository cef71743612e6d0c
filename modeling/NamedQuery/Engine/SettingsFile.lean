import NamedQuery.Engine.Settings
import NamedQuery.Files.Tree
import NamedQuery.Store.Reader
import NamedQuery.Store.Session
import NamedQuery.Toml.Document

/-! # Settings files

Settings as a TOML text: the name of an adapter, the path of a fixture for the adapter in memory, and
names of entity types by key. All of them may be missing, and other fields are passed over. -/

namespace NamedQuery

structure SettingsFile where
  adapter : Option String
  fixture : Option String
  entities : Fields String

namespace SettingsFile

def empty : SettingsFile := ⟨none, none, []⟩

/-! ## Reading -/

/-- A field that holds a string or is missing. -/
def text? (fields : Fields Toml) (name : String) : Option (Option String) :=
  match fields.get? name with
  | none => some none
  | some (.scalar (.string text)) => some (some text)
  | some _ => none

/-- The name under which a moment gives its text when a table is asked for. -/
def momentName : String := "$__toml_private_datetime"

def texts? : Toml → Option (Fields String)
  | .table fields =>
    fields.mapM fun (name, value) =>
      match value with
      | .scalar (.string text) => some (name, text)
      | _ => none
  | .scalar (.moment moment) => some [(momentName, moment.text)]
  | _ => none

def ofFields? (fields : Fields Toml) : Option SettingsFile := do
  let adapter ← text? fields "adapter"
  let fixture ← text? fields "fixture"
  let entities ←
    match fields.get? "entities" with
    | none => some []
    | some value => texts? value
  return ⟨adapter, fixture, entities⟩

def ofText (text : String) : Except Fault SettingsFile :=
  match (Toml.ofText? text).bind ofFields? with
  | some file => .ok file
  | none => .error .invalidSettings

/-- A relative path to a fixture is taken from the directory of the settings file. -/
def located (file : SettingsFile) (path : String) : SettingsFile :=
  { file with
    fixture := file.fixture.map fun fixture =>
      if Path.isRelative fixture then Path.join (Path.parent path) fixture else fixture }

def load {m : Type → Type} [Monad m] (access : FileAccess m) (path : String) :
    m (Except Fault SettingsFile) := do
  match ← access.read path with
  | .error problem => return .error (.file problem)
  | .ok text => return (ofText text).map (·.located path)

/-! ## Settings -/

def memoryName : String := "memory"

def storeOf (text : String) : Except Fault Store :=
  match Store.ofText? text with
  | some store => .ok store
  | none => .error .invalidFixture

/-- The store of the fixture at a path; without a path it is empty. -/
def loadStore {m : Type → Type} [Monad m] (access : FileAccess m) :
    Option String → m (Except Fault Store)
  | none => return .ok .empty
  | some path => do
    match ← access.read path with
    | .error problem => return .error (.file problem)
    | .ok text => return storeOf text

def withStore (file : SettingsFile) (store : Store) : Settings :=
  let settings := (Settings.empty.registerAdapter memoryName store.adapter).useAdapter
    (file.adapter.getD memoryName)
  file.entities.foldl (fun settings (key, name) => settings.registerEntity key (.plain name))
    settings

def settings {m : Type → Type} [Monad m] (access : FileAccess m) (file : SettingsFile) :
    m (Except Fault Settings) := do
  return (← loadStore access file.fixture).map file.withStore

end SettingsFile

end NamedQuery
