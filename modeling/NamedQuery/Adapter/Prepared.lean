import NamedQuery.Adapter.Basic

/-! # Prepared answers

An adapter that answers every call of one name alike, whatever its parameters and the calls
before. It serves to try plans without a store. -/

namespace NamedQuery.Adapter

/-- What a prepared adapter says. What is missing is not implemented. -/
structure Script where
  expected : Option (List FailureKind)
  tables : Option (Fields String)
  replies : ActionName → Option (Except Failure Answer)
  attributes : Option (Except Failure Row)

def prepared (script : Script) : Adapter :=
  let tables : Except Failure (Fields String) :=
    match script.tables with
    | some tables => .ok tables
    | none => .error (.notImplemented "entity_context_map")
  { expected :=
      match script.expected with
      | some kinds => .ok kinds
      | none => .error (.notImplemented "expected_errors")
    tables
    tableFor? := lookUp tables
    session := fun _ => {
      reply := fun earlier action =>
        (script.replies action.name).getD (bareSession.reply earlier action)
      attributes := fun earlier => script.attributes.getD (bareSession.attributes earlier) } }

end NamedQuery.Adapter
