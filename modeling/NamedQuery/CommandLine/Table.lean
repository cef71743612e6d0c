import NamedQuery.Entity
import NamedQuery.Json.Printer

/-! # Tables of entities

Entities line by line, with the attributes of the first one as columns. A column is as wide as its
name and its cells are in bytes, which is never less than in characters; so padding by characters fits
every cell, and all lines are equally long. -/

namespace NamedQuery.CommandLine

def cellText : Json → String
  | .null => "NULL"
  | .string s => s
  | value => value.text

def cell (entity : Entity) (column : String) : String :=
  cellText (entity.getOrNull column)

def columnWidth (entities : List Entity) (column : String) : Nat :=
  (entities.map fun entity => (cell entity column).utf8ByteSize).foldl max column.utf8ByteSize

/-- A text with blanks after it, up to a width in characters. -/
def padded (width : Nat) (text : String) : String :=
  text ++ String.ofList (List.replicate (width - text.length) ' ')

/-- A column of a table: an attribute, and the width of its cells. -/
structure Column where
  name : String
  width : Nat
deriving DecidableEq

def columnsOf (entities : List Entity) : List Column :=
  match entities with
  | [] => []
  | first :: _ => first.attributes.names.map fun name => ⟨name, columnWidth entities name⟩

def tableLine (columns : List Column) (content : String → String) : String :=
  " │ ".intercalate (columns.map fun column => padded column.width (content column.name))

def separatorLine (columns : List Column) : String :=
  "─┼─".intercalate (columns.map fun column => String.ofList (List.replicate column.width '─'))

def tableLines (entities : List Entity) : List String :=
  let columns := columnsOf entities
  tableLine columns id :: separatorLine columns ::
    entities.map fun entity => tableLine columns (cell entity)

end NamedQuery.CommandLine
