import NamedQuery.Plan.Basic

/-! # From intents to plans to actions

The verb of an intent decides which kind of plan it becomes, and the kind of a plan decides which
actions a request becomes. -/

namespace NamedQuery.Plan

/-! ## Lookups

`UserByEmail` finds the first record with a value in a field, `UsersByStatus` all of them, `UserBy`
takes a map of conditions, and `AllUsers` takes no parameters. A lookup of one record by `id`
without further options goes straight to the record. -/

def primaryKey : String := "id"

def lookup (intent : Intent) (adapter : Adapter) : Except Fault Plan := do
  let entity := Inflection.underscore (Inflection.singularize intent.entity)
  let table ← tableFor adapter entity
  return {
    identifier := intent.identifier
    verb := intent.verb
    kind := .lookup intent.key (intent.verb = .all)
    isCollection := Inflection.isPlural intent.entity
    target := entity
    table }

def conditionsOf (field : Option String) (value : Json) : Except Fault (Fields Json) :=
  match field with
  | some field => .ok [(field, value)]
  | none =>
    match value with
    | .object conditions => .ok conditions
    | _ => .error (.arguments .conditionsExpected)

def callerConditions (options : Options) : Fields Json :=
  match options.get? "conditions" with
  | some (.object conditions) => conditions
  | _ => []

/-- The actions of a lookup with a parameter. Conditions among the options never replace those of
the key. -/
def lookupActions (field : Option String) (isCollection : Bool) (request : Request) :
    Except Fault (List Action) := do
  let value ← request.onlyValue .notOneValue
  let conditions ← conditionsOf field value
  let (options, eagerLoad) ← Options.splitEagerLoad request.options
  Options.requireMap options "conditions"
  if field = some primaryKey ∧ !isCollection ∧ options.isEmpty then
    return ⟨.get, [(primaryKey, value)]⟩ :: eagerLoad
  let conditions := conditions.complete (callerConditions options)
  let name := if isCollection then .findAll else .findFirst
  return ⟨name, options.insert "conditions" (.object conditions)⟩ :: eagerLoad

def parameterlessActions (request : Request) : Except Fault (List Action) :=
  if request.isEmpty then .ok [⟨.findAll, []⟩] else .error .optionsNotPermitted

/-! ## Walks

`PostsFromUser` starts at one record, the anchor, and follows relations to the result. The relations
on the way are listed in the option `via`, where the last one, to the result, may be left out. The
table of a walk is the one of its anchor. -/

def walk (intent : Intent) (adapter : Adapter) : Except Fault Plan := do
  let key ←
    match intent.key with
    | some key => pure key
    | none => throw (.invalidIdentifier intent.identifier .noAnchor)
  let anchor := Inflection.singularize key
  let table ← tableFor adapter anchor
  let resultKey := Inflection.underscore intent.entity
  return {
    identifier := intent.identifier
    verb := intent.verb
    kind := .walk anchor resultKey
    isCollection := Inflection.isPlural intent.entity
    target := resultKey
    table }

/-- The identity of an anchor, which is given itself or as a field of a map. -/
def anchorId (anchor : Json) : Except Fault Json :=
  match anchor with
  | .object fields =>
    match Fields.get? fields "id" with
    | none => .error (.arguments .anchorWithoutId)
    | some .null => .error (.arguments .anchorWithoutId)
    | some id => .ok id
  | .null => .error (.arguments .anchorMissing)
  | id => .ok id

/-- A chain of relations that ends in the one to the result. -/
def chainTo (resultKey : String) (via : List String) : List String :=
  if via.getLast? = some resultKey then via else via ++ [resultKey]

def walkActions (resultKey : String) (request : Request) : Except Fault (List Action) := do
  let anchor ← request.onlyValue .notOneAnchor
  let via ← Options.relations (request.options.get? "via") "via"
  let options := Options.compact request.options
  Options.requireMap options "conditions"
  let id ← anchorId anchor
  let options := options.erase "via" |>.insert "id" id
    |>.insert "via" (Options.ofNames (chainTo resultKey via))
    |>.insert "result_key" (.string resultKey)
  return [⟨.ancestors, options⟩]

/-! ## Joins

`UsersJoinedWithComments` returns the records that have related ones; it always returns many. The
options of a join can also be passed as a map by position, and then those passed by name win. -/

def join (intent : Intent) (adapter : Adapter) : Except Fault Plan := do
  let joinTable ←
    match intent.key with
    | some key => pure key
    | none => throw (.invalidIdentifier intent.identifier .noAssociation)
  let table ← tableFor adapter (Inflection.underscore (Inflection.singularize intent.entity))
  let baseTable := Inflection.underscore intent.entity
  return {
    identifier := intent.identifier
    verb := intent.verb
    kind := .join baseTable joinTable
    isCollection := true
    target := baseTable
    table }

def joinOptions (request : Request) : Except Fault Options :=
  match request.values with
  | [] => .ok request.options
  | [.object positional] => .ok (request.options.complete positional)
  | _ => .error (.arguments .optionsExpected)

def joinActions (joinTable : String) (request : Request) : Except Fault (List Action) := do
  let options ← joinOptions request
  let (options, eagerLoad) ← Options.splitEagerLoad options
  Options.requireMap options "conditions"
  Options.requireMap options "with_conditions"
  return ⟨.join, options.insert "with" (.string joinTable)⟩ :: eagerLoad

/-! ## All kinds -/

def ofIntent (intent : Intent) (adapter : Adapter) : Except Fault Plan :=
  match intent.verb with
  | .byField => lookup intent adapter
  | .all => lookup intent adapter
  | .fromAnchor => walk intent adapter
  | .joinedWith => join intent adapter

def actions (plan : Plan) (request : Request) : Except Fault (List Action) :=
  match plan.kind with
  | .lookup _ true => parameterlessActions request
  | .lookup field false => lookupActions field plan.isCollection request
  | .walk _ resultKey => walkActions resultKey request
  | .join _ joinTable => joinActions joinTable request

end NamedQuery.Plan
