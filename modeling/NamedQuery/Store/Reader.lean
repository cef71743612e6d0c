import NamedQuery.Json.Document
import NamedQuery.Store.Basic

/-! # Reading stores

The text of a store is a JSON document. A record of fixed fields, such as a store or a relation, is
either an object or the array of its fields in order; a field may not be given twice, and fields that
are not known are passed over, whatever they hold. In maps, of entries with one name the last
counts. -/

namespace NamedQuery.Store

open Json (Document)

/-! ## Records of fixed fields -/

/-- The fields of a record by name, out of the entries of an object: one place for each name that is
known, empty if the name does not occur. -/
def fieldsOfEntries? (known : List String) :
    List (Option String × Document) → Option (List (Option Document))
  | [] => some (known.map fun _ => none)
  | (name, document) :: rest => do
    let name ← name
    let fields ← fieldsOfEntries? known rest
    match known.idxOf? name with
    | none => some fields
    | some i =>
      match fields[i]? with
      | some none => some (fields.set i (some document))
      | _ => none

/-- The fields of a record: entries of an object by name, or items of an array by position. -/
def fields? (known : List String) : Document → Option (List (Option Document))
  | .object entries => fieldsOfEntries? known entries
  | .array items =>
    if items.length ≤ known.length then
      some (items.map some ++ List.replicate (known.length - items.length) none)
    else none
  | _ => none

/-- The entries of a map, each value read by `read`; of entries with one name the last counts. -/
def map? {α : Type} (read : Document → Option α) : Document → Option (Fields α)
  | .object entries => do
    let entries ← entries.mapM fun (name, document) => do
      return (← name, ← read document)
    return Fields.ofList entries
  | _ => none

/-! ## Relations -/

def kindOfText? (text : String) : Option Relation.Kind :=
  if text = "has_many" then some .hasMany
  else if text = "belongs_to" then some .belongsTo
  else none

/-- The kind of a relation: its name, or an object with its name and null. -/
def kind? : Document → Option Relation.Kind
  | .string text => do kindOfText? (← text)
  | .object [(name, .null)] => do kindOfText? (← name)
  | _ => none

def text? : Document → Option String
  | .string text => text
  | _ => none

/-- A relation. It is of the kind `hasMany` if nothing else is said. -/
def readRelation? (document : Document) : Option Relation := do
  match ← fields? ["table", "foreign_key", "kind"] document with
  | [some table, some foreignKey, kind] =>
    let kind ← match kind with
      | some kind => kind? kind
      | none => some .hasMany
    return ⟨← text? table, ← text? foreignKey, kind⟩
  | _ => none

/-! ## Tables -/

/-- A row. It may nest as deep as is left after the levels of store, tables and table. -/
def readRow? (document : Document) : Option Row := do
  (← document.value? (Document.maxDepth - 3)).object?

def readRows? : Document → Option (List Row)
  | .array items => items.mapM readRow?
  | _ => none

/-! ## Stores -/

/-- A map, or nothing at all for a field that is missing. -/
def optionalMap? {α : Type} (read : Document → Option α) (document : Option Document) :
    Option (Fields α) :=
  match document with
  | some document => map? read document
  | none => some []

def ofDocument? (document : Document) : Option Store := do
  match ← fields? ["tables", "relations"] document with
  | [tables, relations] =>
    return ⟨← optionalMap? readRows? tables, ← optionalMap? (map? readRelation?) relations⟩
  | _ => none

def ofText? (text : String) : Option Store := do
  ofDocument? (← Document.ofText? text.toList)

end NamedQuery.Store
