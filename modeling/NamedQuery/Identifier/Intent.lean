import NamedQuery.Identifier.Words
import NamedQuery.Inflection.Number
import NamedQuery.Text.Classes

/-! # What an identifier asks for

A query identifier names what it returns, a verb, and usually a key: `UserByEmail`,
`PostsFromUser`, `UsersJoinedWithComments`, `AllUsers`. A verb counts only as whole words, so the
`By` of `Bylines` is none. -/

namespace NamedQuery

inductive Verb where
  /-- `By`: records with a value in a field. -/
  | byField
  /-- `From`: records reached from another one. -/
  | fromAnchor
  /-- `JoinedWith`: records with related ones. -/
  | joinedWith
  /-- `All`: every record. -/
  | all
deriving DecidableEq

def Verb.text : Verb → String
  | .byField => "By"
  | .fromAnchor => "From"
  | .joinedWith => "JoinedWith"
  | .all => "All"

/-- The parts of a query identifier. The key is in snake_case. -/
structure Intent where
  identifier : String
  entity : String
  verb : Verb
  key : Option String
deriving DecidableEq

namespace Identifier

def join (words : List String) : String :=
  String.ofList (words.flatMap String.toList)

/-- The verb at the front of a sequence of words, and the words after it. -/
def verb? : List String → Option (Verb × List String)
  | "By" :: rest => some (.byField, rest)
  | "From" :: rest => some (.fromAnchor, rest)
  | "Joined" :: "With" :: rest => some (.joinedWith, rest)
  | _ => none

/-- Splits words at the first verb: the words before it, the verb, the words after it. -/
def splitAtVerb? : List String → Option (List String × Verb × List String)
  | [] => none
  | word :: rest =>
    match verb? (word :: rest) with
    | some (verb, after) => some ([], verb, after)
    | none => (splitAtVerb? rest).map fun (before, verb, after) => (word :: before, verb, after)

/-- The intent of words without a `By` too many. The first word never is a verb: in front of
`All` nothing may stand, and every other verb follows an entity. -/
def intentOfWords? (identifier : String) : List String → Option Intent
  | [] => none
  | first :: rest =>
    match splitAtVerb? rest with
    | some (before, verb, after) =>
      some {
        identifier
        entity := join (first :: before)
        verb
        key := if after.isEmpty then none else some (Inflection.underscore (join after)) }
    | none =>
      if first = "All" ∧ rest ≠ [] ∧ Inflection.isPlural (join rest) then
        some { identifier, entity := join rest, verb := .all, key := none }
      else none

inductive Reading where
  /-- The text is no query identifier. -/
  | notQuery
  /-- The text uses `By` more than once. -/
  | severalBy (identifier : String)
  | query (intent : Intent)
deriving DecidableEq

/-- Reads a text as a query identifier, without the white space around it. -/
def read (text : String) : Reading :=
  let identifier := Text.trim text.toList
  match words? identifier with
  | none => .notQuery
  | some words =>
    let words := words.map String.ofList
    if 1 < words.count "By" then .severalBy (String.ofList identifier)
    else
      match intentOfWords? (String.ofList identifier) words with
      | some intent => .query intent
      | none => .notQuery

end Identifier

end NamedQuery
