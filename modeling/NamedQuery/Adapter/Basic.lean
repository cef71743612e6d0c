import NamedQuery.Json.Basic

/-! # Adapters

An adapter gives queries access to a store of records. It says which table serves which entity, and
opens sessions on tables. A session is a black box: what it answers to a call may depend on all
calls made before (`Session.reply`). What an adapter does not provide fails as not implemented. -/

namespace NamedQuery

/-- The attributes of a record. -/
abbrev Row := Fields Json

namespace Row

def same (x y : Row) : Bool :=
  Json.sameFields x y

def sameAll : List Row → List Row → Bool
  | [], [] => true
  | x :: xs, y :: ys => same x y && sameAll xs ys
  | _, _ => false

end Row

abbrev Options := Fields Json

/-! ## Failures -/

namespace Adapter

inductive FailureKind where
  /-- No record matched. -/
  | notFound
  /-- A named relation does not exist. -/
  | invalidRelation
  /-- The adapter does not provide this. -/
  | notImplemented
  /-- Any other failure. -/
  | backend
deriving DecidableEq

structure Failure where
  kind : FailureKind
  message : String
deriving DecidableEq

def Failure.notImplemented (capability : String) : Failure :=
  ⟨.notImplemented, "You must implement `" ++ capability ++ "` in your adapter."⟩

end Adapter

/-! ## Calls -/

inductive ActionName where
  | get
  | findFirst
  | findAll
  | ancestors
  | join
  | eagerLoad
deriving DecidableEq

def ActionName.text : ActionName → String
  | .get => "get"
  | .findFirst => "find_first"
  | .findAll => "find_all"
  | .ancestors => "ancestors"
  | .join => "join"
  | .eagerLoad => "eager_load"

structure Action where
  name : ActionName
  options : Options

inductive Answer where
  | one (row : Row)
  | many (rows : List Row)

/-! ## Sessions -/

/-- An open session. `reply earlier action` answers a call made after the calls `earlier`, and
`attributes earlier` gives the attributes of the record that these calls left selected. -/
structure Session where
  reply : (earlier : List Action) → (action : Action) → Except Adapter.Failure Answer
  attributes : (earlier : List Action) → Except Adapter.Failure Row

structure Adapter where
  /-- The failures that are part of normal work. -/
  expected : Except Adapter.Failure (List Adapter.FailureKind)
  /-- The table of each entity. -/
  tables : Except Adapter.Failure (Fields String)
  /-- The table of one entity. -/
  tableFor? : (entity : String) → Except Adapter.Failure (Option String)
  /-- Opens a session on a table. -/
  session : (table : String) → Session

namespace Adapter

def bareSession : Session where
  reply _ action := .error (.notImplemented action.name.text)
  attributes _ := .error (.notImplemented "to_hash")

def lookUp (tables : Except Failure (Fields String)) (entity : String) :
    Except Failure (Option String) :=
  tables.map (·.get? entity)

end Adapter

end NamedQuery
