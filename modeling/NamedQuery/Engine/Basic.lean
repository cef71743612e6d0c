import NamedQuery.Engine.Settings
import NamedQuery.Run

/-! # Engines

An engine compiles identifiers and runs them. It keeps the plans it has compiled and the entity
types it has made up, and counts its compilations; neither the plans nor the types that it keeps
change any answer. -/

namespace NamedQuery

structure Engine where
  settings : Settings
  /-- Compiled plans by identifier. -/
  plans : Fields Plan
  /-- Entity types made up for results, by name. -/
  types : Fields EntityType
  /-- How often an identifier was compiled. -/
  compilations : Nat

namespace Engine

def ofSettings (settings : Settings) : Engine := ⟨settings, [], [], 0⟩

def empty : Engine := ofSettings .empty

def configure (engine : Engine) (change : Settings → Settings) : Engine :=
  { engine with settings := change engine.settings }

/-- Forgets the settings, the plans and the types, but not the number of compilations. -/
def reset (engine : Engine) : Engine :=
  { ofSettings .empty with compilations := engine.compilations }

/-! ## Compiling -/

/-- The plan that an identifier has with given settings, if it is a query at all. -/
def plan? (settings : Settings) (identifier : String) : Except Fault (Option Plan) :=
  match Identifier.read identifier with
  | .notQuery => .ok none
  | .severalBy identifier => .error (.invalidIdentifier identifier .severalBy)
  | .query intent => do
    let adapter ← settings.adapter
    return some (← Plan.ofIntent intent adapter)

/-- Compiles an identifier, or finds the plan that was compiled for it before. -/
def compile (engine : Engine) (identifier : String) : Except Fault (Option Plan) × Engine :=
  let identifier := Text.trimmed identifier
  match engine.plans.get? identifier with
  | some plan => (.ok (some plan), engine)
  | none =>
    match plan? engine.settings identifier with
    | .error fault => (.error fault, engine)
    | .ok none => (.ok none, engine)
    | .ok (some plan) =>
      (.ok (some plan),
        { engine with
          plans := engine.plans.insert identifier plan
          compilations := engine.compilations + 1 })

/-! ## Running -/

/-- What a step of an engine gives, and what was done in a session on the way. -/
structure Step (α : Type) where
  result : Except Fault α
  events : List Event
  engine : Engine

/-- The type of the results of a plan: the one registered for its key, or else one that is made up
from its name and kept. -/
def typeOf (engine : Engine) (plan : Plan) : EntityType × Engine :=
  match engine.settings.entityType? plan.entityKey with
  | some type => (type, engine)
  | none =>
    match engine.types.get? plan.typeName with
    | some type => (type, engine)
    | none =>
      let type := EntityType.plain plan.typeName
      (type, { engine with types := engine.types.insert plan.typeName type })

/-- The failure of an adapter whose answer has not the shape that a plan is for. -/
def shapeMismatch (plan : Plan) (wanted given : String) : Fault :=
  .adapter ⟨.backend,
    plan.identifier ++ " expects " ++ wanted ++ " but the adapter returned " ++ given⟩

def output (plan : Plan) (type : EntityType) (answer : Answer) : Except Fault Output :=
  match plan.isCollection, answer with
  | true, .many rows => .ok (.collection ⟨type, rows⟩)
  | false, .one row => .ok (.single (type.entity row))
  | true, .one _ => .error (shapeMismatch plan "a record set" "one record")
  | false, .many _ => .error (shapeMismatch plan "one record" "a record set")

def execute (engine : Engine) (plan : Plan) (request : Request) : Step Output :=
  match engine.settings.adapter with
  | .error fault => ⟨.error fault, [], engine⟩
  | .ok adapter =>
    let (type, engine) := engine.typeOf plan
    let outcome := plan.run adapter request
    ⟨outcome.result.bind (output plan type), outcome.events, engine⟩

/-- Compiles an identifier and goes on with its plan; nothing is done for an identifier that is no
query. -/
def withPlan {α : Type} (engine : Engine) (identifier : String) (go : Engine → Plan → Step α) :
    Step (Option α) :=
  match engine.compile identifier with
  | (.error fault, engine) => ⟨.error fault, [], engine⟩
  | (.ok none, engine) => ⟨.ok none, [], engine⟩
  | (.ok (some plan), engine) =>
    let step := go engine plan
    ⟨step.result.map some, step.events, step.engine⟩

def actions (engine : Engine) (identifier : String) (request : Request) :
    Step (Option (List Action)) :=
  engine.withPlan identifier fun engine plan => ⟨plan.actions request, [], engine⟩

/-- Runs an identifier; every fault is reported. -/
def runStrict (engine : Engine) (identifier : String) (request : Request) :
    Step (Option Output) :=
  engine.withPlan identifier fun engine plan => engine.execute plan request

/-- The result of a run that may find nothing: faults of the ordinary kind become nothing. -/
def lenient {α : Type} (result : Except Fault α) : Except Fault (Option α) :=
  match result with
  | .ok value => .ok (some value)
  | .error fault => if fault.isSwallowed then .ok none else .error fault

/-- Runs an identifier; ordinary faults of the run become nothing. Faults of compiling are
reported. -/
def run (engine : Engine) (identifier : String) (request : Request) :
    Step (Option (Option Output)) :=
  engine.withPlan identifier fun engine plan =>
    let step := engine.execute plan request
    { step with result := lenient step.result }

end Engine

end NamedQuery
