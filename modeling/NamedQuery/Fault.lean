import NamedQuery.Adapter.Basic

/-! # Faults

Everything that can go wrong between an identifier and its result, as causes. `Fault.kind` sorts
the causes, and `Fault.message` is their wording. -/

namespace NamedQuery

/-- What is wrong with an identifier that is a query in form. -/
inductive IdentifierProblem where
  | severalBy
  | noAnchor
  | noAssociation
deriving DecidableEq

def IdentifierProblem.message : IdentifierProblem → String
  | .severalBy =>
    "You have multiple instances of \"By\" in your identifier. " ++
      "Please use the open-ended form, ie. UserBy with a condition map"
  | .noAnchor => "ancestor queries need an anchor entity, ie. PostsFromUser"
  | .noAssociation => "join queries need an association, ie. UsersJoinedWithComments"

inductive ArgumentProblem where
  | notOneValue (given : Nat)
  | notOneAnchor (given : Nat)
  | conditionsExpected
  | optionsExpected
  | notRelations (option : String)
  | notMap (option : String)
  | anchorWithoutId
  | anchorMissing
deriving DecidableEq

def ArgumentProblem.message : ArgumentProblem → String
  | .notOneValue given =>
    "wrong number of arguments (given " ++ toString given ++ ", expected 1)"
  | .notOneAnchor given =>
    "wrong number of arguments (given " ++ toString given ++ ", expected 1 anchor)"
  | .conditionsExpected => "open-ended lookups take a map of conditions"
  | .optionsExpected => "join queries take a single map of options"
  | .notRelations option =>
    "`" ++ option ++ "` must be a relation name or a list of relation names"
  | .notMap option => "`" ++ option ++ "` must be a map"
  | .anchorWithoutId => "anchor does not expose an `id`"
  | .anchorMissing => "anchor is missing"

inductive FileProblem where
  | notFound
  | notDirectory
  | isDirectory
  | badName
  | nameTooLong
  | other (message : String)
deriving DecidableEq

def FileProblem.message : FileProblem → String
  | .notFound => "No such file or directory (os error 2)"
  | .notDirectory => "Not a directory (os error 20)"
  | .isDirectory => "Is a directory (os error 21)"
  | .badName => "file name contained an unexpected NUL byte"
  | .nameTooLong => "File name too long (os error 36)"
  | .other message => message

inductive Fault where
  /-- No adapter has been chosen. -/
  | notConfigured
  /-- No table serves an entity. -/
  | unknownEntity (entity : String)
  /-- A plan came to no actions. -/
  | noActions (identifier : String)
  /-- The adapter failed in an expected way. -/
  | failed (message : String)
  /-- The adapter does not provide something. -/
  | notImplemented (message : String)
  /-- A walk names a relation that does not exist. -/
  | invalidAncestry (message : String)
  /-- No record matched. -/
  | notFound (message : String)
  /-- The identifier is no proper query. -/
  | invalidIdentifier (identifier : String) (problem : IdentifierProblem)
  /-- A query without parameters was given some. -/
  | optionsNotPermitted
  /-- The arguments do not fit the query. -/
  | arguments (problem : ArgumentProblem)
  /-- The adapter failed in an unexpected way. -/
  | adapter (failure : Adapter.Failure)
  /-- The chosen adapter is not registered. -/
  | unknownAdapter (name : String)
  /-- A fixture is not the text of a store. -/
  | invalidFixture
  /-- A settings file is not proper. -/
  | invalidSettings
  /-- A file cannot be read. -/
  | file (problem : FileProblem)
deriving DecidableEq

namespace Fault

inductive Kind where
  | base
  | methodNotImplemented
  | invalidAncestry
  | recordNotFound
  | invalidClassName
  | optionsNotPermitted
  | arguments
  | adapter
  | config
  | io
deriving DecidableEq

def kind : Fault → Kind
  | notConfigured => .base
  | unknownEntity _ => .base
  | noActions _ => .base
  | failed _ => .base
  | notImplemented _ => .methodNotImplemented
  | invalidAncestry _ => .invalidAncestry
  | notFound _ => .recordNotFound
  | invalidIdentifier _ _ => .invalidClassName
  | optionsNotPermitted => .optionsNotPermitted
  | arguments _ => .arguments
  | adapter _ => .adapter
  | unknownAdapter _ => .config
  | invalidFixture => .config
  | invalidSettings => .config
  | file _ => .io

def message : Fault → String
  | notConfigured => "Adapter has not been configured"
  | unknownEntity entity => "No store registered for entity '" ++ entity ++ "'"
  | noActions identifier => identifier ++ " has no actions"
  | failed message => message
  | notImplemented message => "Method not implemented: " ++ message
  | invalidAncestry message => "Invalid ancestry: " ++ message
  | notFound message => "Record not found: " ++ message
  | invalidIdentifier identifier problem =>
    "Invalid identifier '" ++ identifier ++ "': " ++ problem.message
  | optionsNotPermitted => "Options not supported with 'All' queries"
  | arguments problem => "Invalid arguments: " ++ problem.message
  | adapter failure => failure.message
  | unknownAdapter name => "Configuration error: Unknown adapter '" ++ name ++ "'"
  | invalidFixture => "Configuration error: invalid fixture: not the text of a store"
  | invalidSettings => "Configuration error: TOML parse error: not the text of settings"
  | file problem => "IO error: " ++ problem.message

/-- Whether a query that may answer nothing answers nothing instead of failing. -/
def isSwallowed (fault : Fault) : Bool :=
  fault.kind = .base || fault.kind = .recordNotFound

/-- The fault of an adapter's failure, given the kinds that are expected. Invalid relations and
missing capabilities are always understood; all else only if it is expected. -/
def ofFailure (expected : List Adapter.FailureKind) (failure : Adapter.Failure) : Fault :=
  match failure.kind with
  | .invalidRelation => .invalidAncestry failure.message
  | .notImplemented => .notImplemented failure.message
  | .notFound =>
    if expected.contains .notFound then .notFound failure.message else .adapter failure
  | .backend => if expected.contains .backend then .failed failure.message else .adapter failure

end Fault

end NamedQuery
