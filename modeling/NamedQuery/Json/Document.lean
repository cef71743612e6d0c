import NamedQuery.Json.Basic
import NamedQuery.Json.Token

/-! # JSON documents

A document is what a JSON text says before its numbers and names are given a meaning: literals are
kept as they are written, and objects list all their entries, in order and with repetitions. Reading a document
(`Document.ofText?`) puts no limit on nesting; giving it a value (`Document.value?`) does. -/

namespace NamedQuery.Json

open Numeric (Literal)

/-- The tree of a JSON text. Strings without a text come from escapes that leave half of a
pair. -/
inductive Document where
  | null
  | bool (b : Bool)
  | number (literal : Literal)
  | string (text : Option String)
  | array (items : List Document)
  | object (entries : List (Option String × Document))

namespace Document

/-! ## From tokens -/

/-- A container that waits for its next value: an array with its items so far, or an object with
its entries so far and the name of the next one. What came last stands first. -/
inductive Frame where
  | array (items : List Document)
  | object (entries : List (Option String × Document)) (name : Option String)

/-- What may come next, inside which containers. -/
inductive State where
  | value (outer : List Frame)
  | firstItem (outer : List Frame)
  | afterItem (items : List Document) (outer : List Frame)
  | firstName (outer : List Frame)
  | nextName (entries : List (Option String × Document)) (outer : List Frame)
  | colon (entries : List (Option String × Document)) (name : Option String) (outer : List Frame)
  | afterEntry (entries : List (Option String × Document)) (outer : List Frame)
  | complete (document : Document)

/-- Puts a finished value where it was waited for. -/
def State.place (document : Document) : List Frame → State
  | [] => .complete document
  | .array items :: outer => .afterItem (document :: items) outer
  | .object entries name :: outer => .afterEntry ((name, document) :: entries) outer

def State.begin (outer : List Frame) : Token → Option State
  | .null => some (place .null outer)
  | .bool b => some (place (.bool b) outer)
  | .number literal => some (place (.number literal) outer)
  | .string text => some (place (.string text) outer)
  | .openArray => some (.firstItem outer)
  | .openObject => some (.firstName outer)
  | _ => none

def State.step : State → Token → Option State
  | .value outer, token => begin outer token
  | .firstItem outer, .closeArray => some (place (.array []) outer)
  | .firstItem outer, token => begin (.array [] :: outer) token
  | .afterItem items outer, .comma => some (.value (.array items :: outer))
  | .afterItem items outer, .closeArray => some (place (.array items.reverse) outer)
  | .firstName outer, .closeObject => some (place (.object []) outer)
  | .firstName outer, .string name => some (.colon [] name outer)
  | .nextName entries outer, .string name => some (.colon entries name outer)
  | .colon entries name outer, .colon => some (.value (.object entries name :: outer))
  | .afterEntry entries outer, .comma => some (.nextName entries outer)
  | .afterEntry entries outer, .closeObject => some (place (.object entries.reverse) outer)
  | _, _ => none

def ofTokens? (tokens : List Token) : Option Document := do
  match ← tokens.foldlM State.step (.value []) with
  | .complete document => some document
  | _ => none

def ofText? (text : List Char) : Option Document := do
  ofTokens? (← tokens? text)

end Document

/-! ## Values -/

/-- The number of a literal: an integer if it is written as one and fits a word, and otherwise a
floating-point number. A zero with a minus sign is a floating-point number. -/
def number? (l : Literal) : Option Number :=
  let n : Int := Numeric.ofDigits l.whole
  let n := if l.negative then -n else n
  if h : l.fraction = none ∧ l.exponent = none ∧ ¬(l.negative ∧ n = 0) ∧ IsWord n then
    some (.integer n h.2.2.2)
  else l.binary64?.map .float

namespace Document

mutual
/-- The value of a document in which arrays and objects nest at most `depth` levels. Of entries
with one name the last counts. -/
def value? (depth : Nat) : Document → Option Json
  | null => some .null
  | bool b => some (.bool b)
  | number literal => (number? literal).map .number
  | string text => text.map .string
  | array items =>
    match depth with
    | 0 => none
    | depth + 1 => (items? depth items).map .array
  | object entries =>
    match depth with
    | 0 => none
    | depth + 1 => (entries? depth entries).map fun entries => .object (Fields.ofList entries)
def items? (depth : Nat) : List Document → Option (List Json)
  | [] => some []
  | item :: rest => do
    let value ← value? depth item
    let values ← items? depth rest
    return value :: values
def entries? (depth : Nat) : List (Option String × Document) → Option (List (String × Json))
  | [] => some []
  | (name, item) :: rest => do
    let name ← name
    let value ← value? depth item
    let values ← entries? depth rest
    return (name, value) :: values
end

/-- How deep arrays and objects may nest in a text. -/
def maxDepth : Nat := 127

end Document

def ofText? (text : String) : Option Json := do
  (← Document.ofText? text.toList).value? Document.maxDepth

end NamedQuery.Json
