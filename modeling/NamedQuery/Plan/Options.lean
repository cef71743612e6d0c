import NamedQuery.Fault

/-! # Options of a query

Callers may leave options blank, which is the same as leaving them out, and may name relations one
by one or as a list. -/

namespace NamedQuery

/-- Null, the empty string, the empty list and the empty map. -/
def Json.isBlank : Json → Bool
  | .null => true
  | .string s => s.isEmpty
  | .array items => items.isEmpty
  | .object fields => fields.isEmpty
  | .bool _ => false
  | .number _ => false

namespace Options

def compact (options : Options) : Options :=
  options.filter fun (_, value) => !value.isBlank

/-- The names in a list of values that have to be strings. -/
def names? : List Json → Option (List String)
  | [] => some []
  | .string name :: rest => (names? rest).map (name :: ·)
  | _ :: _ => none

/-- The relations that an option lists: one name, or a list of names. -/
def relations (value : Option Json) (option : String) : Except Fault (List String) :=
  match value with
  | none => .ok []
  | some .null => .ok []
  | some (.string name) => .ok (if name.isEmpty then [] else [name])
  | some (.array items) =>
    match names? items with
    | some names => .ok names
    | none => .error (.arguments (.notRelations option))
  | some _ => .error (.arguments (.notRelations option))

def requireMap (options : Options) (option : String) : Except Fault Unit :=
  match options.get? option with
  | none => .ok ()
  | some (.object _) => .ok ()
  | some _ => .error (.arguments (.notMap option))

def ofNames (names : List String) : Json :=
  .array (names.map .string)

/-- The options without blanks and without the request to embed related records, and the action
that this request asks for. -/
def splitEagerLoad (options : Options) : Except Fault (Options × List Action) := do
  let options := compact options
  let names ← relations (options.get? "eager_load") "eager_load"
  let actions :=
    if names.isEmpty then [] else [⟨.eagerLoad, [("relations", ofNames names)]⟩]
  return (options.erase "eager_load", actions)

end Options

/-- What a caller passes to a query: values by position, and options. -/
structure Request where
  values : List Json
  options : Options

namespace Request

def none : Request := ⟨[], []⟩

def withValue (request : Request) (value : Json) : Request :=
  { request with values := request.values ++ [value] }

def withOption (request : Request) (name : String) (value : Json) : Request :=
  { request with options := request.options.insert name value }

def isEmpty (request : Request) : Bool :=
  request.values.isEmpty && request.options.isEmpty

/-- The value of a request that must have one and no more. What is wrong otherwise depends on what the
value is for. -/
def onlyValue (otherwise : Nat → ArgumentProblem) (request : Request) : Except Fault Json :=
  match request.values with
  | [value] => .ok value
  | values => .error (.arguments (otherwise values.length))

end Request

end NamedQuery
