import NamedQuery.Plan.Compile

/-! # Running plans

A run opens one session on the table of its plan and makes the calls of its actions in order, up to
the first one that fails. The answer of the last call is the answer of the run; if it is one record
and the plan is for one record, the record is read back from the session. Every run lists what it
did in a session. -/

namespace NamedQuery

inductive Event where
  | opened (table : String)
  | called (action : Action)
  | readBack

namespace Session

/-- The answer to the last of a series of calls, or the first failure, together with the calls that
were made. -/
def performAll (session : Session) (earlier : List Action) (last : Option Answer) :
    List Action → Except Adapter.Failure (Option Answer) × List Action
  | [] => (.ok last, [])
  | action :: rest =>
    match session.reply earlier action with
    | .error failure => (.error failure, [action])
    | .ok answer =>
      let (result, made) := session.performAll (earlier ++ [action]) (some answer) rest
      (result, action :: made)

end Session

structure Run where
  plan : Plan
  actions : List Action
  expected : List Adapter.FailureKind
  session : Session

namespace Run

/-- Gets ready: the request has to fit the plan, and the adapter has to say what it expects. -/
def ready (plan : Plan) (adapter : Adapter) (request : Request) : Except Fault Run := do
  let actions ← plan.actions request
  let expected ←
    match adapter.expected with
    | .ok kinds => pure kinds
    | .error failure => throw (.ofFailure [] failure)
  return ⟨plan, actions, expected, adapter.session plan.table⟩

structure Outcome where
  result : Except Fault Answer
  events : List Event

def outcome (run : Run) : Outcome :=
  let (last, made) := run.session.performAll [] none run.actions
  let events := .opened run.plan.table :: made.map .called
  match last with
  | .error failure => ⟨.error (.ofFailure run.expected failure), events⟩
  | .ok none => ⟨.error (.noActions run.plan.identifier), events⟩
  | .ok (some (.many rows)) => ⟨.ok (.many rows), events⟩
  | .ok (some (.one row)) =>
    if run.plan.isCollection then ⟨.ok (.one row), events⟩
    else
      let attributes := (run.session.attributes made).mapError (.ofFailure run.expected)
      ⟨attributes.map .one, events ++ [.readBack]⟩

end Run

def Plan.run (plan : Plan) (adapter : Adapter) (request : Request) : Run.Outcome :=
  match Run.ready plan adapter request with
  | .error fault => ⟨.error fault, []⟩
  | .ok run => run.outcome

end NamedQuery
