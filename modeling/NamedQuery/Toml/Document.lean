import NamedQuery.Fields
import NamedQuery.Toml.Statement

/-! # TOML documents

The statements of a text build one table. No table may be defined twice: it matters whether a table
has a header of its own, came into being on the way to the table of another header, or was made by
a key of several names (`Origin`). -/

namespace NamedQuery

inductive Toml where
  | scalar (s : Toml.Scalar)
  | array (items : List Toml)
  | table (fields : List (String × Toml))

namespace Toml

/-! ## Tables under construction -/

inductive Origin where
  | header
  | path
  | key
deriving DecidableEq

/-- What a name stands for while a document is read. -/
inductive Item where
  | value (value : Toml)
  | table (origin : Origin) (entries : List (String × Item))
  /-- An array of tables, to which the last one is still open. -/
  | elements (closed : List (List (String × Item))) (last : List (String × Item))

abbrev Entries := Fields Item

namespace Entries

/-- Sets the value under a key that begins with `name`. Tables on the way are made as needed; those
that a header made are closed to keys, and the table that is to hold the value must have been made by
a key. Nothing is set twice. -/
def put? (entries : Entries) (name : String) (value : Toml) : Key → Option Entries
  | [] => if entries.contains name then none else some (entries.insert name (.value value))
  | next :: rest =>
    match entries.get? name with
    | none => (put? [] next value rest).map fun inner => entries.insert name (.table .key inner)
    | some (.table origin inner) =>
      if origin = .header ∨ (origin = .path ∧ rest = []) then none
      else
        (put? inner next value rest).map fun inner => entries.insert name (.table origin inner)
    | some (.elements closed last) =>
      if rest = [] then none
      else
        (put? last next value rest).map fun last => entries.insert name (.elements closed last)
    | some (.value _) => none

/-- Changes the table at a path of headers. Tables on the way are made as needed; in an array of
tables the way goes through the last one. -/
def alter? (change : Entries → Option Entries) (entries : Entries) : Key → Option Entries
  | [] => change entries
  | name :: rest =>
    match entries.get? name with
    | none => (alter? change [] rest).map fun inner => entries.insert name (.table .path inner)
    | some (.table origin inner) =>
      (alter? change inner rest).map fun inner => entries.insert name (.table origin inner)
    | some (.elements closed last) =>
      (alter? change last rest).map fun last => entries.insert name (.elements closed last)
    | some (.value _) => none

/-- Defines the table of a header. It may be there already, if only on the way to another. -/
def defineTable? (name : String) (entries : Entries) : Option Entries :=
  match entries.get? name with
  | none => some (entries.insert name (.table .header []))
  | some (.table .path inner) => some (entries.insert name (.table .header inner))
  | _ => none

def addElement? (name : String) (entries : Entries) : Option Entries :=
  match entries.get? name with
  | none => some (entries.insert name (.elements [] []))
  | some (.elements closed last) =>
    some (entries.insert name (.elements (closed ++ [last]) []))
  | _ => none

end Entries

/-! ## Values -/

mutual
def Item.toml : Item → Toml
  | .value v => v
  | .table _ entries => .table (Item.fields entries)
  | .elements closed last => .array (Item.tables closed ++ [.table (Item.fields last)])
def Item.fields : List (String × Item) → List (String × Toml)
  | [] => []
  | (name, item) :: rest => (name, item.toml) :: Item.fields rest
def Item.tables : List (List (String × Item)) → List Toml
  | [] => []
  | entries :: rest => .table (Item.fields entries) :: Item.tables rest
end

def Entries.putKey? (entries : Entries) (key : Key) (value : Toml) : Option Entries :=
  match key with
  | [] => none
  | name :: rest => entries.put? name value rest

def tableOf? (fields : List (Key × Toml)) : Option Toml :=
  (fields.foldlM (fun (entries : Entries) (key, value) => entries.putKey? key value) []).map
    fun entries => .table (Item.fields entries)

/-- How deep arrays and inline tables may nest. -/
def maxDepth : Nat := 79

mutual
/-- The value of a node in which arrays and inline tables nest at most `depth` levels. -/
def ofNode? (depth : Nat) : Node → Option Toml
  | .scalar s => some (.scalar s)
  | .array items =>
    match depth with
    | 0 => none
    | depth + 1 => (ofNodes? depth items).map .array
  | .inline entries =>
    match depth with
    | 0 => none
    | depth + 1 => (ofInline? depth entries).bind tableOf?
def ofNodes? (depth : Nat) : List Node → Option (List Toml)
  | [] => some []
  | node :: rest => do
    let value ← ofNode? depth node
    let values ← ofNodes? depth rest
    return value :: values
def ofInline? (depth : Nat) : List (Key × Node) → Option (List (Key × Toml))
  | [] => some []
  | (key, node) :: rest => do
    let value ← ofNode? depth node
    let values ← ofInline? depth rest
    return (key, value) :: values
end

/-! ## Documents -/

/-- A document under construction: its table, and the path of the header that entries belong to. -/
structure Draft where
  entries : Entries
  path : Key

/-- A change to the place that a path names, made in the table around it. -/
def Draft.define? (draft : Draft) (path : Key) (change : String → Entries → Option Entries) :
    Option Draft := do
  let name ← path.getLast?
  return ⟨← draft.entries.alter? (change name) path.dropLast, path⟩

def Draft.step (draft : Draft) : Statement → Option Draft
  | .entry key node => do
    let value ← ofNode? maxDepth node
    return ⟨← draft.entries.alter? (·.putKey? key value) draft.path, draft.path⟩
  | .table path => draft.define? path Entries.defineTable?
  | .element path => draft.define? path Entries.addElement?

def ofText? (text : String) : Option (Fields Toml) := do
  let statements ← statements? (← tokens? text.toList)
  let draft ← statements.foldlM Draft.step ⟨[], []⟩
  return Item.fields draft.entries

end Toml

end NamedQuery
