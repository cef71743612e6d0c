import NamedQuery.Store.Window

/-! # Selections

A session on a store has a selection, and every call works on what the call before has selected: a
whole table, one row, or some rows. Here is what each call selects next; a call that fails because
of its own parameters selects nothing new. -/

namespace NamedQuery.Store

/-- What a session has selected, and the table that it belongs to. -/
inductive Selection where
  | whole (table : String)
  | one (table : String) (row : Row)
  | many (table : String) (rows : List Row)

namespace Selection

def tableName : Selection → String
  | whole table => table
  | one table _ => table
  | many table _ => table

def rows (store : Store) : Selection → List Row
  | whole table => store.rows table
  | one _ row => [row]
  | many _ rows => rows

def answer (store : Store) : Selection → Answer
  | whole table => .many (store.rows table)
  | one _ row => .one row
  | many _ rows => .many rows

end Selection

/-! ## Finding rows -/

def get (store : Store) (options : Options) (selection : Selection) : Except Problem Selection :=
  match options.get? "id" with
  | none => .error .missingId
  | some id =>
    match (selection.rows store).find? (hasKey · "id" id) with
    | none => .error (.noRowWithId selection.tableName id)
    | some row => .ok (.one selection.tableName row)

def findAll (store : Store) (options : Options) (selection : Selection) :
    Except Problem Selection := do
  let conditions ← readConditions options "conditions"
  let window ← readWindow options
  let rows := (selection.rows store).filter (satisfiesAll conditions)
  return .many selection.tableName (window.apply rows)

def first (store : Store) (selection : Selection) : Except Problem Selection :=
  match selection.rows store with
  | [] => .error (.noRow selection.tableName)
  | row :: _ => .ok (.one selection.tableName row)

/-! ## Walking -/

/-- The rows that are not equal to one of `seen` or to an earlier one. -/
def distinctAfter (seen : List Row) : List Row → List Row
  | [] => []
  | row :: rest =>
    if seen.any (Row.same · row) then distinctAfter seen rest
    else row :: distinctAfter (row :: seen) rest

def distinct (rows : List Row) : List Row :=
  distinctAfter [] rows

/-- Follows a relation by name. From one row a relation of the kind `belongsTo` leads to one row; all
else leads to a set of rows. -/
def hop (store : Store) (name : String) (selection : Selection) : Except Problem Selection :=
  match store.relation? selection.tableName name with
  | none => .error (.invalidRelation selection.tableName name)
  | some relation =>
    match selection with
    | .whole _ => .error (.noAnchor name)
    | .one _ row =>
      let reached := distinct (related store relation row)
      match relation.kind with
      | .hasMany => .ok (.many relation.table reached)
      | .belongsTo =>
        match reached with
        | [] => .error (.noRelatedRow relation.table name)
        | row :: _ => .ok (.one relation.table row)
    | .many _ rows => .ok (.many relation.table (distinct (rows.flatMap (related store relation))))

def readVia (options : Options) : Except Problem (List String) :=
  match options.get? "via" with
  | none => .ok []
  | some (.array items) =>
    match items.mapM Json.string? with
    | some names => .ok names
    | none => .error .badVia
  | some _ => .error .badVia

/-- Applies the options of a walk to where it ended: conditions and window to a set of rows,
and conditions alone to one row, which stays selected as it is. -/
def finishWalk (store : Store) (options : Options) (selection : Selection) :
    Except Problem Selection :=
  match selection with
  | .many _ _ => findAll store options selection
  | .one table row => do
    let conditions ← readConditions options "conditions"
    if satisfiesAll conditions row then .ok selection else .error (.noRow table)
  | .whole _ => .ok selection

/-! ## Joining -/

def hasRelated (store : Store) (relation : Relation) (conditions : Fields Json) (row : Row) :
    Bool :=
  (related store relation row).any (satisfiesAll conditions)

/-- Keeps the rows that have a related row which matches the option `with_conditions`. This option
is looked at only if there are rows. -/
def keepJoined (store : Store) (relation : Relation) (options : Options) (rows : List Row) :
    Except Problem (List Row) :=
  if rows.isEmpty then .ok []
  else do
    let conditions ← readConditions options "with_conditions"
    return rows.filter (hasRelated store relation conditions)

/-- Selects the rows that match conditions and have matching related rows, in a window. -/
def join (store : Store) (options : Options) (selection : Selection) : Except Problem Selection :=
  match options.get? "with" with
  | some (.string name) =>
    match store.relation? selection.tableName name with
    | none => .error (.cannotJoin selection.tableName name)
    | some relation => do
      let conditions ← readConditions options "conditions"
      let rows := (selection.rows store).filter (satisfiesAll conditions)
      let joined ← keepJoined store relation options rows
      let window ← readWindow options
      return .many selection.tableName (window.apply joined)
  | _ => .error .missingWith

/-! ## Embedding -/

/-- The relations named by a call; what is no name is passed over. -/
def readRelations (options : Options) : List String :=
  match options.get? "relations" with
  | some (.array items) => items.filterMap Json.string?
  | some (.string name) => [name]
  | _ => []

def resolve (store : Store) (table : String) :
    List String → Except Problem (List (String × Relation))
  | [] => .ok []
  | name :: rest =>
    match store.relation? table name with
    | none => .error (.noAssociation table name)
    | some relation => do return (name, relation) :: (← resolve store table rest)

/-- The value that stands for related rows: a list of all, or the first one or null. -/
def embedded (kind : Relation.Kind) (rows : List Row) : Json :=
  match kind with
  | .hasMany => .array (rows.map .object)
  | .belongsTo =>
    match rows with
    | [] => .null
    | row :: _ => .object row

/-- Embeds related rows, one relation after another, under the names of the relations. -/
def embed (store : Store) (relations : List (String × Relation)) (row : Row) : Row :=
  relations.foldl (fun row (name, relation) =>
    row.insert name (embedded relation.kind (related store relation row))) row

def eagerLoad (store : Store) (options : Options) (selection : Selection) :
    Except Problem Selection := do
  let relations ← resolve store selection.tableName (readRelations options)
  match selection with
  | .whole table => return .many table ((store.rows table).map (embed store relations))
  | .one table row => return .one table (embed store relations row)
  | .many table rows => return .many table (rows.map (embed store relations))

end NamedQuery.Store
