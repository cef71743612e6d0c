import NamedQuery.Numeric.Literal
import NamedQuery.Text.Classes

/-! # Tokens of JSON text

A text is cut into brackets, commas, colons, strings and bare words; a bare word is a number or one
of `null`, `true` and `false`. The cutting goes from left to right with a `Scan` state that says
what the current token has so far.

Escapes of the form `\uXXXX` write UTF-16 units. A string whose units do not pair up is still a
token, without a text. -/

namespace NamedQuery.Json

open Numeric (Literal)
open Text (hexValue? takeDigits)

/-- A token. The text of a string is missing when its escapes leave half of a pair. -/
inductive Token where
  | openArray
  | closeArray
  | openObject
  | closeObject
  | comma
  | colon
  | null
  | bool (b : Bool)
  | number (literal : Literal)
  | string (text : Option String)
deriving DecidableEq

/-! ## Bare words -/

/-- The digits of a whole part: no zero before other digits, and at least one. -/
def isWhole : List Nat → Bool
  | [] => false
  | 0 :: _ :: _ => false
  | _ => true

/-- The exponent that a text writes after the letter `e`. -/
def exponent? (cs : List Char) : Option Int :=
  let (negative, rest) :=
    match cs with
    | '+' :: rest => (false, rest)
    | '-' :: rest => (true, rest)
    | _ => (false, cs)
  match takeDigits rest with
  | ([], _) => none
  | (digits, []) =>
    let n : Int := Numeric.ofDigits digits
    some (if negative then -n else n)
  | (_, _ :: _) => none

def exponentPart? : List Char → Option (Option Int)
  | [] => some none
  | c :: rest => if c = 'e' ∨ c = 'E' then (exponent? rest).map some else none

def unsigned? (negative : Bool) (cs : List Char) : Option Literal :=
  let (whole, rest) := takeDigits cs
  if isWhole whole then
    match rest with
    | '.' :: rest =>
      match takeDigits rest with
      | ([], _) => none
      | (fraction, rest) =>
        (exponentPart? rest).map fun exponent => ⟨negative, whole, some fraction, exponent⟩
    | _ => (exponentPart? rest).map fun exponent => ⟨negative, whole, none, exponent⟩
  else none

def literal? : List Char → Option Literal
  | '-' :: rest => unsigned? true rest
  | cs => unsigned? false cs

def bareToken? (word : List Char) : Option Token :=
  if word = ['n', 'u', 'l', 'l'] then some .null
  else if word = ['t', 'r', 'u', 'e'] then some (.bool true)
  else if word = ['f', 'a', 'l', 's', 'e'] then some (.bool false)
  else (literal? word).map .number

/-! ## Strings -/

/-- A piece of a string: a character, or a UTF-16 unit from an escape. -/
inductive Piece where
  | char (c : Char)
  | unit (n : Nat)

def isHighHalf (n : Nat) : Bool := 0xD800 ≤ n && n < 0xDC00

def isLowHalf (n : Nat) : Bool := 0xDC00 ≤ n && n < 0xE000

/-- Puts pieces together; halves of pairs must stand side by side. -/
def assemble : List Piece → Option (List Char)
  | [] => some []
  | .char c :: rest => (assemble rest).map (c :: ·)
  | .unit high :: .unit low :: rest =>
    if isHighHalf high then
      if isLowHalf low then
        (assemble rest).map (Char.ofNat (0x10000 + (high - 0xD800) * 0x400 + (low - 0xDC00)) :: ·)
      else none
    else if isLowHalf high then none
    else (assemble (.unit low :: rest)).map (Char.ofNat high :: ·)
  | .unit n :: rest =>
    if isHighHalf n || isLowHalf n then none else (assemble rest).map (Char.ofNat n :: ·)

def escape? (c : Char) : Option Char :=
  if c = '"' ∨ c = '\\' ∨ c = '/' then some c
  else if c = 'b' then some '\x08'
  else if c = 'f' then some '\x0c'
  else if c = 'n' then some '\n'
  else if c = 'r' then some '\r'
  else if c = 't' then some '\t'
  else none

/-- The token of a string whose pieces are given last first. -/
def stringToken (pieces : List Piece) : Token :=
  .string ((assemble pieces.reverse).map String.ofList)

/-! ## Scanning -/

/-- What the token under way has so far. Pieces and characters come last first. -/
inductive Scan where
  | between
  | bare (chars : List Char)
  | string (pieces : List Piece)
  | escape (pieces : List Piece)
  | hex (pieces : List Piece) (missing : Nat) (value : Nat)

def isSpace (c : Char) : Bool :=
  c == ' ' || c == '\n' || c == '\t' || c == '\r'

def punctuation? (c : Char) : Option Token :=
  if c = '[' then some .openArray
  else if c = ']' then some .closeArray
  else if c = '{' then some .openObject
  else if c = '}' then some .closeObject
  else if c = ',' then some .comma
  else if c = ':' then some .colon
  else none

def scan : Scan → List Char → Option (List Token)
  | .between, [] => some []
  | .between, c :: cs =>
    if isSpace c then scan .between cs
    else if c = '"' then scan (.string []) cs
    else
      match punctuation? c with
      | some token => (scan .between cs).map (token :: ·)
      | none => scan (.bare [c]) cs
  | .bare word, [] => (bareToken? word.reverse).map ([·])
  | .bare word, c :: cs =>
    if isSpace c then do
      let token ← bareToken? word.reverse
      (scan .between cs).map (token :: ·)
    else if c = '"' then none
    else
      match punctuation? c with
      | some mark => do
        let token ← bareToken? word.reverse
        (scan .between cs).map (token :: mark :: ·)
      | none => scan (.bare (c :: word)) cs
  | .string pieces, c :: cs =>
    if c = '"' then (scan .between cs).map (stringToken pieces :: ·)
    else if c = '\\' then scan (.escape pieces) cs
    else if c.toNat < 0x20 then none
    else scan (.string (.char c :: pieces)) cs
  | .escape pieces, c :: cs =>
    if c = 'u' then scan (.hex pieces 3 0) cs
    else
      match escape? c with
      | some d => scan (.string (.char d :: pieces)) cs
      | none => none
  | .hex pieces missing value, c :: cs =>
    match hexValue? c with
    | none => none
    | some digit =>
      let value := value * 16 + digit
      match missing with
      | 0 => scan (.string (.unit value :: pieces)) cs
      | missing + 1 => scan (.hex pieces missing value) cs
  | .string _, [] => none
  | .escape _, [] => none
  | .hex _ _ _, [] => none

def tokens? (cs : List Char) : Option (List Token) :=
  scan .between cs

end NamedQuery.Json
