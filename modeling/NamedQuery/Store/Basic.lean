import NamedQuery.Adapter.Basic

/-! # Stores

A store holds tables of records in memory, and relations between them by foreign keys. Rows keep
the order in which they were inserted. -/

namespace NamedQuery

namespace Relation

inductive Kind where
  /-- The rows of the other table whose key is this row's `id`. -/
  | hasMany
  /-- The row of the other table whose `id` is this row's key. -/
  | belongsTo
deriving DecidableEq

def Kind.text : Kind → String
  | .hasMany => "has_many"
  | .belongsTo => "belongs_to"

end Relation

structure Relation where
  table : String
  foreignKey : String
  kind : Relation.Kind
deriving DecidableEq

/-- Tables and relations. The relations of a table are found under its name. -/
structure Store where
  tables : Fields (List Row)
  relations : Fields (Fields Relation)

namespace Store

/-! ## Building -/

def empty : Store := ⟨[], []⟩

/-- Sets a table. Values that are no maps are no rows. -/
def withTable (store : Store) (name : String) (rows : List Json) : Store :=
  { store with tables := store.tables.insert name (rows.filterMap Json.object?) }

def insertRow (store : Store) (table : String) (row : Row) : Store :=
  { store with
    tables := store.tables.insert table ((store.tables.get? table).getD [] ++ [row]) }

def relate (store : Store) (table name : String) (relation : Relation) : Store :=
  { store with
    relations :=
      store.relations.insert table
        (((store.relations.get? table).getD []).insert name relation) }

/-! ## Looking up -/

/-- The rows of a table; a table that is not there has none. -/
def rows (store : Store) (table : String) : List Row :=
  (store.tables.get? table).getD []

def relation? (store : Store) (table name : String) : Option Relation := do
  (← store.relations.get? table).get? name

/-! ## Equality -/

def sameTables : Fields (List Row) → Fields (List Row) → Bool
  | [], [] => true
  | (name, x) :: xs, (other, y) :: ys => name == other && Row.sameAll x y && sameTables xs ys
  | _, _ => false

def same (x y : Store) : Bool :=
  sameTables x.tables y.tables && x.relations == y.relations

end Store

end NamedQuery
