import NamedQuery.Entity
import NamedQuery.Fault

/-! # Settings of an engine

The adapters that are registered, the one that is in use, and the entity types registered for the
results of single queries. -/

namespace NamedQuery

structure Settings where
  inUse : Option String
  adapters : Fields Adapter
  entityTypes : Fields EntityType

namespace Settings

def empty : Settings := ⟨none, [], []⟩

def registerAdapter (settings : Settings) (name : String) (adapter : Adapter) : Settings :=
  { settings with adapters := settings.adapters.insert name adapter }

def useAdapter (settings : Settings) (name : String) : Settings :=
  { settings with inUse := some name }

def registerEntity (settings : Settings) (key : String) (type : EntityType) : Settings :=
  { settings with entityTypes := settings.entityTypes.insert key type }

def adapter (settings : Settings) : Except Fault Adapter :=
  match settings.inUse with
  | none => .error .notConfigured
  | some name =>
    match settings.adapters.get? name with
    | none => .error (.unknownAdapter name)
    | some adapter => .ok adapter

def entityType? (settings : Settings) (key : String) : Option EntityType :=
  settings.entityTypes.get? key

end Settings

end NamedQuery
