import NamedQuery.CommandLine.Arguments
import NamedQuery.CommandLine.Report
import NamedQuery.CommandLine.Table
import NamedQuery.Engine.Basic
import NamedQuery.Engine.SettingsFile
import NamedQuery.Json.Document

/-! # Commands

`explain` shows what an identifier means and the actions it comes to, `run` runs it and shows the
result, and `symbols` shows the verbs. The first two read settings through a `FileAccess` and are
otherwise pure. -/

namespace NamedQuery.CommandLine

variable {m : Type → Type} [Monad m]

/-! ## Settings -/

/-- The settings file that a command line names, or the one at `defaultPath`. A file that is not
there counts as empty. -/
def settingsFile (access : FileAccess m) (defaultPath : Option String) (arguments : Arguments) :
    m (Except Problem SettingsFile) := do
  match arguments.config <|> defaultPath with
  | none => return .ok .empty
  | some path =>
    if ← access.isThere path then
      return (← SettingsFile.load access path).mapError (.notLoaded path)
    else return .ok .empty

def settings (access : FileAccess m) (defaultPath : Option String) (arguments : Arguments) :
    m (Except Problem Settings) := do
  match ← settingsFile access defaultPath arguments with
  | .error problem => return .error problem
  | .ok file =>
    let file := { file with fixture := arguments.fixture <|> file.fixture }
    return (← file.settings access).mapError .fault

/-! ## Requests -/

/-- A value on the command line: JSON if it is, and else a string. -/
def valueOf (text : String) : Json :=
  (Json.ofText? text).getD (.string text)

def keyValue (option : String) : Except Problem (String × Json) :=
  match splitEquals option.toList with
  | (key, some value) => .ok (Text.trimmed key, valueOf value)
  | (_, none) => .error (.notKeyValue option)

def request (query : QueryArguments) : Except Problem Request := do
  let options ← query.options.mapM keyValue
  return ⟨query.arguments.map valueOf, Fields.ofList options⟩

/-! ## Explaining -/

def intentLines (intent : Intent) : List String :=
  ["Intent:", "  Entity: " ++ intent.entity, "  Verb: " ++ intent.verb.text] ++
    intent.key.toList.map ("  Key: " ++ ·)

def kindValue : Plan.Kind → Json
  | .lookup field parameterless =>
    .object [("builder", .string "field_lookup"),
      ("field", (field.map Json.string).getD .null), ("parameterless", .bool parameterless)]
  | .walk anchor resultKey =>
    .object [("builder", .string "ancestor_walk"), ("anchor", .string anchor),
      ("result_key", .string resultKey)]
  | .join baseTable joinTable =>
    .object [("builder", .string "join"), ("base_table", .string baseTable),
      ("join_table", .string joinTable)]

def planLines (plan : Plan) : List String := [
  "",
  "Plan:",
  "  Store: " ++ plan.table,
  "  Target: " ++ plan.target,
  "  Returns: " ++ (if plan.isCollection then "collection" else "single"),
  "  Builder: " ++ (kindValue plan.kind).text]

def actionLines (actions : List Action) : List String :=
  ["", "Actions:"] ++ actions.map fun action =>
    "  " ++ action.name.text ++ " " ++ (Json.object action.options).text

def actionsOf (plan : Plan) (query : QueryArguments) : Except Problem (List Action) := do
  (plan.actions (← request query)).mapError .fault

def explainPlan (settings : Settings) (query : QueryArguments) : Report :=
  let (compiled, _) := (Engine.ofSettings settings).compile query.identifier
  .withValue (compiled.mapError .fault) fun plan =>
    match plan with
    | none => .ofLines []
    | some plan =>
      .after (planLines plan)
        (.withValue (actionsOf plan query) fun actions => .ofLines (actionLines actions))

def explain (settings : m (Except Problem Settings)) (query : QueryArguments) : m Report := do
  let heading := ["Identifier: " ++ query.identifier, ""]
  match Identifier.read query.identifier with
  | .notQuery => return .ofLines (heading ++ ["Not a query identifier."])
  | .severalBy identifier =>
    return .after heading (.failed (.fault (.invalidIdentifier identifier .severalBy)))
  | .query intent =>
    return .after (heading ++ intentLines intent)
      (.withValue (← settings) fun settings => explainPlan settings query)

/-! ## Running -/

def noResults : List String := ["(no results)"]

/-- An output as a table, with its type and the number of rows below. -/
def outputTable (output : Output) : List String :=
  let entities := output.entities
  if entities.isEmpty then noResults
  else
    tableLines entities ++
      ["", output.type.name ++ " " ++ toString entities.length ++ " row(s)"]

def outputLines (format : Format) : Option Output → List String
  | none => noResults
  | some output =>
    match format with
    | .json => [output.value.indented]
    | .table => outputTable output

/-- Runs a query strictly or not; only a run that is not strict may come to nothing. -/
def outputOf (engine : Engine) (plan : Plan) (request : Request) (strict : Bool) :
    Except Fault (Option Output) :=
  let result := (engine.execute plan request).result
  if strict then result.map some else Engine.lenient result

def runQuery (settings : Settings) (query : QueryArguments) (strict : Bool) :
    Except Problem (Option Output) := do
  let (compiled, engine) := (Engine.ofSettings settings).compile query.identifier
  match ← compiled.mapError .fault with
  | none => throw (.notQuery query.identifier)
  | some plan => (outputOf engine plan (← request query) strict).mapError .fault

def run (settings : m (Except Problem Settings)) (query : QueryArguments) (strict : Bool)
    (format : Format) : m Report := do
  let settings ← settings
  return .withValue (settings.bind (runQuery · query strict)) fun output =>
    .ofLines (outputLines format output)

/-! ## The verbs -/

def symbolLine (verb identifier function call : String) : String :=
  padded 12 verb ++ " " ++ padded 24 identifier ++ " " ++ padded 20 function ++ " " ++ call

def symbols : List String := [
  "get verb reference",
  "",
  symbolLine "Verb" "Example" "Function" "Adapter call",
  String.ofList (List.replicate 80 '─'),
  symbolLine "By" "UserByEmail" "Field lookup" "find_first / find_all",
  symbolLine "By" "UserById" "Primary key lookup" "get",
  symbolLine "By" "UsersBy" "Open-ended lookup" "find_all(conditions)",
  symbolLine "From" "PostsFromUser" "Ancestry walk" "ancestors(via)",
  symbolLine "JoinedWith" "UsersJoinedWithPosts" "Join" "join(with)",
  symbolLine "All" "AllUsers" "Every record" "find_all",
  symbolLine "" "-o eager_load=posts" "Embed relations" "eager_load"]

/-! ## All commands -/

def execute (access : FileAccess m) (defaultPath : Option String) (arguments : Arguments) :
    m Report :=
  let settings := settings access defaultPath arguments
  match arguments.command with
  | .explain query => explain settings query
  | .run query strict format => run settings query strict format
  | .symbols => return .ofLines symbols

end NamedQuery.CommandLine
