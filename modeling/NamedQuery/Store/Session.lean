import NamedQuery.Store.Selection

/-! # Sessions on a store

What a call leaves behind, also when it fails half-way: `findFirst` and `ancestors` are made of
several steps, and a step that fails does not undo those before it. -/

namespace NamedQuery.Store

/-- What a call leaves behind: a selection, and the problem if the call has failed. -/
structure Move where
  selection : Selection
  problem : Option Problem

namespace Move

/-- One step: it either selects something, or fails and leaves the selection. -/
def step (selection : Selection) (next : Except Problem Selection) : Move :=
  match next with
  | .ok selection => ⟨selection, none⟩
  | .error problem => ⟨selection, some problem⟩

def andThen (move : Move) (next : Selection → Move) : Move :=
  match move.problem with
  | some _ => move
  | none => next move.selection

end Move

/-- Selects the first row that matches. The matching rows are selected first, so they are what is
left if there is none. -/
def findFirst (store : Store) (options : Options) (selection : Selection) : Move :=
  (Move.step selection (findAll store options selection)).andThen fun selection =>
    Move.step selection (first store selection)

def follow (store : Store) : List String → Selection → Move
  | [], selection => ⟨selection, none⟩
  | name :: rest, selection =>
    (Move.step selection (hop store name selection)).andThen (follow store rest)

def ancestors (store : Store) (options : Options) (selection : Selection) : Move :=
  (Move.step selection (get store options selection)).andThen fun anchor =>
    match readVia options with
    | .error problem => ⟨anchor, some problem⟩
    | .ok names =>
      (follow store names anchor).andThen fun reached =>
        Move.step reached (finishWalk store options reached)

def perform (store : Store) (action : Action) (selection : Selection) : Move :=
  match action.name with
  | .get => .step selection (get store action.options selection)
  | .findFirst => findFirst store action.options selection
  | .findAll => .step selection (findAll store action.options selection)
  | .ancestors => ancestors store action.options selection
  | .join => .step selection (join store action.options selection)
  | .eagerLoad => .step selection (eagerLoad store action.options selection)

def Move.answer (store : Store) (move : Move) : Except Problem Answer :=
  match move.problem with
  | some problem => .error problem
  | none => .ok (move.selection.answer store)

def attributes (selection : Selection) : Except Problem Row :=
  match selection with
  | .one _ row => .ok row
  | _ => .error .notOneRecord

def selectionAfter (store : Store) (start : Selection) (actions : List Action) : Selection :=
  actions.foldl (fun selection action => (perform store action selection).selection) start

def session (store : Store) (table : String) : Session where
  reply earlier action :=
    ((perform store action (selectionAfter store (.whole table) earlier)).answer store).mapError
      Problem.failure
  attributes earlier :=
    (attributes (selectionAfter store (.whole table) earlier)).mapError Problem.failure

/-! ## Stores as adapters -/

/-- The table of each entity: an entity is the singular of the name of its table. Of several such
tables the last one counts. -/
def entityTables (store : Store) : Fields String :=
  Fields.ofList (store.tables.names.map fun table => (Inflection.singularize table, table))

/-- The table of an entity: one whose name has the entity as its singular, or else the one that is
named like the entity. -/
def tableFor? (store : Store) (entity : String) : Option String :=
  match store.entityTables.get? entity with
  | some table => some table
  | none => if store.tables.contains entity then some entity else none

def adapter (store : Store) : Adapter where
  expected := .ok [.notFound, .backend]
  tables := .ok store.entityTables
  tableFor? entity := .ok (store.tableFor? entity)
  session := store.session

end NamedQuery.Store
