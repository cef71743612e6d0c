import NamedQuery.Identifier.Intent
import NamedQuery.Plan.Options

/-! # Query plans

A plan is what an identifier compiles to: the table it starts from, what it fetches, and whether it
returns one record or many. It is made once and serves all requests. -/

namespace NamedQuery

namespace Plan

inductive Kind where
  /-- Records by the value of a field, or by several conditions if no field is named. -/
  | lookup (field : Option String) (parameterless : Bool)
  /-- Records reached from an anchor. -/
  | walk (anchor resultKey : String)
  /-- Records with related ones. -/
  | join (baseTable joinTable : String)
deriving DecidableEq

end Plan

structure Plan where
  identifier : String
  verb : Verb
  kind : Plan.Kind
  isCollection : Bool
  /-- The entity that is fetched, in snake_case. -/
  target : String
  /-- The table that the plan starts from. -/
  table : String
deriving DecidableEq

namespace Plan

/-- The key under which an entity type for the results can be registered. -/
def entityKey (plan : Plan) : String :=
  Inflection.underscore plan.identifier

/-- The name of the entity type that results have unless one is registered. -/
def typeName (plan : Plan) : String :=
  let key :=
    match plan.kind with
    | .walk _ resultKey => resultKey
    | _ => if plan.isCollection then Inflection.pluralize plan.target else plan.target
  "Get" ++ Inflection.camelize key

def tableFor (adapter : Adapter) (entity : String) : Except Fault String :=
  match adapter.tableFor? entity with
  | .error failure => .error (.ofFailure [] failure)
  | .ok none => .error (.unknownEntity entity)
  | .ok (some table) => .ok table

end Plan

end NamedQuery
