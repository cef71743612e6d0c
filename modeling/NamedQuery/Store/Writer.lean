import NamedQuery.Json.Printer
import NamedQuery.Store.Basic

/-! # Writing stores

A store is written as compact JSON. The fields of a store and of a relation stand in the order in
which they are declared, the entries of a map in the order of their names. As a value inside of another
one a store has all its fields in the order of their names. -/

namespace NamedQuery

def Relation.record (relation : Relation) : Json :=
  .object [
    ("table", .string relation.table),
    ("foreign_key", .string relation.foreignKey),
    ("kind", .string relation.kind.text)]

namespace Store

def mapRecord {α : Type} (write : α → Json) (fields : Fields α) : Json :=
  .object (fields.map fun (name, value) => (name, write value))

def rowsRecord (rows : List Row) : Json :=
  .array (rows.map .object)

def record (store : Store) : Json :=
  .object [
    ("tables", mapRecord rowsRecord store.tables),
    ("relations", mapRecord (mapRecord Relation.record) store.relations)]

def text (store : Store) : String :=
  store.record.text

/-! ## Stores inside of values -/

def relationValue (relation : Relation) : Json :=
  .object [
    ("foreign_key", .string relation.foreignKey),
    ("kind", .string relation.kind.text),
    ("table", .string relation.table)]

def value (store : Store) : Json :=
  .object [
    ("relations", mapRecord (mapRecord relationValue) store.relations),
    ("tables", mapRecord rowsRecord store.tables)]

end Store

end NamedQuery
