import NamedQuery.Inflection.Number
import NamedQuery.Json.Printer
import NamedQuery.Store.Basic

/-! # Problems of a store

Why a call on a store fails, and how the failure is reported. -/

namespace NamedQuery.Store

inductive Problem where
  | missingId
  | noRowWithId (table : String) (id : Json)
  | noRow (table : String)
  | noRelatedRow (table name : String)
  | invalidRelation (table name : String)
  | noAnchor (name : String)
  | badVia
  | badConditions
  | badOrder
  | badCount (option : String)
  | missingWith
  | cannotJoin (table name : String)
  | noAssociation (table name : String)
  | notOneRecord

namespace Problem

def kind : Problem → Adapter.FailureKind
  | noRowWithId _ _ => .notFound
  | noRow _ => .notFound
  | noRelatedRow _ _ => .notFound
  | invalidRelation _ _ => .invalidRelation
  | _ => .backend

def message : Problem → String
  | missingId => "get requires an `id`"
  | noRowWithId table id =>
    "Couldn't find " ++ Inflection.singularize table ++ " with 'id'=" ++ id.text
  | noRow table => "Couldn't find " ++ Inflection.singularize table
  | noRelatedRow table name =>
    "Couldn't find " ++ Inflection.singularize table ++ " for '" ++ name ++ "'"
  | invalidRelation table name =>
    "Invalid relation '" ++ name ++ "' on " ++ table ++
      ". Ensure that the plurality of your associations is correct."
  | noAnchor name => "cannot walk '" ++ name ++ "' without an anchor record"
  | badVia => "`via` must list relation names"
  | badConditions => "`conditions` must be a map"
  | badOrder => "`order` must be a string"
  | badCount option => "`" ++ option ++ "` must be a non-negative integer"
  | missingWith => "join requires `with`"
  | cannotJoin table name =>
    "Can't join '" ++ table ++ "' to association named '" ++ name ++
      "'; perhaps you misspelled it?"
  | noAssociation table name =>
    "Association named '" ++ name ++ "' was not found on " ++ table ++
      "; perhaps you misspelled it?"
  | notOneRecord => "to_hash needs a single record"

def failure (problem : Problem) : Adapter.Failure :=
  ⟨problem.kind, problem.message⟩

end Problem

end NamedQuery.Store
