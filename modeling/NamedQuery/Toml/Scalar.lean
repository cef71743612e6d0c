import NamedQuery.Numeric.Literal
import NamedQuery.Toml.Moment

/-! # Scalars of TOML

Strings, truth values, 64-bit integers, floating-point numbers and moments. All but the strings are
written as bare words (`Scalar.ofBare?`). In numbers a single underscore may stand between two
digits. -/

namespace NamedQuery.Toml

open Numeric (Binary64 Literal)

inductive Floating where
  | finite (x : Binary64)
  | infinite (negative : Bool)
  | nan
deriving DecidableEq

inductive Scalar where
  | string (text : String)
  | bool (b : Bool)
  | integer (n : Int)
  | float (x : Floating)
  | moment (moment : Moment)
deriving DecidableEq

/-! ## Digits -/

/-- The digits of a text in which single underscores may stand between digits. -/
def digits? (value? : Char → Option Nat) : List Char → Option (List Nat)
  | [] => none
  | [c] => (value? c).map ([·])
  | c :: '_' :: rest => do
    let digit ← value? c
    return digit :: (← digits? value? rest)
  | c :: rest => do
    let digit ← value? c
    return digit :: (← digits? value? rest)

/-- A sign at the front of a text: whether it is a minus, and the rest. -/
def takeSign : List Char → Bool × List Char
  | '-' :: rest => (true, rest)
  | '+' :: rest => (false, rest)
  | cs => (false, cs)

/-- The digits of a whole part: no zero stands before other digits. -/
def whole? (cs : List Char) : Option (List Nat) :=
  match digits? Text.decimalValue? cs with
  | some (0 :: _ :: _) => none
  | digits => digits

/-! ## Integers -/

def base? (c : Char) : Option (Nat × (Char → Option Nat)) :=
  if c = 'x' then some (16, Text.hexValue?)
  else if c = 'o' then some (8, fun c => (Text.decimalValue? c).filter (· < 8))
  else if c = 'b' then some (2, fun c => (Text.decimalValue? c).filter (· < 2))
  else none

/-- The integer of a word. With a base it has no sign. -/
def unboundedInteger? (word : List Char) : Option Int :=
  match word with
  | '0' :: letter :: rest =>
    match base? letter with
    | some (base, value?) =>
      (digits? value? rest).map fun digits => (digits.foldl (fun n d => n * base + d) 0 : Nat)
    | none => none
  | _ =>
    let (negative, rest) := takeSign word
    (whole? rest).map fun digits =>
      let n : Int := Numeric.ofDigits digits
      if negative then -n else n

/-- The integer of a word, if it fits 64 bits. -/
def integer? (word : List Char) : Option Int :=
  (unboundedInteger? word).filter fun n => -0x8000000000000000 ≤ n ∧ n < 0x8000000000000000

/-! ## Floating-point numbers -/

/-- A text up to the first character of a kind, and what follows that character if there is one. -/
def splitAt (isSplit : Char → Bool) (cs : List Char) : List Char × Option (List Char) :=
  match cs.dropWhile (!isSplit ·) with
  | [] => (cs, none)
  | _ :: rest => (cs.takeWhile (!isSplit ·), some rest)

def exponent? (cs : List Char) : Option Int := do
  let (negative, rest) := takeSign cs
  let n : Int := Numeric.ofDigits (← digits? Text.decimalValue? rest)
  return if negative then -n else n

def optional? {α : Type} (read : List Char → Option α) : Option (List Char) → Option (Option α)
  | none => some none
  | some cs => (read cs).map some

def literal? (word : List Char) : Option Literal := do
  let (negative, rest) := takeSign word
  let (mantissa, exponent) := splitAt (fun c => c == 'e' || c == 'E') rest
  let (whole, fraction) := splitAt (· == '.') mantissa
  if exponent.isNone && fraction.isNone then none
  else
    return ⟨negative, ← whole? whole, ← optional? (digits? Text.decimalValue?) fraction,
      ← optional? exponent? exponent⟩

/-- The floating-point number of a literal. A number that is too large is infinite, which only
negative numbers may be. -/
def Floating.ofLiteral? (l : Literal) : Option Floating :=
  match l.nearest? with
  | some x => some (.finite x)
  | none => if l.negative then some (.infinite true) else none

/-- The words for infinity and for what is not a number, which may have a sign. -/
def special? (word : List Char) : Option Floating :=
  let (negative, rest) := takeSign word
  if rest = ['i', 'n', 'f'] then some (.infinite negative)
  else if rest = ['n', 'a', 'n'] then some .nan
  else none

def float? (word : List Char) : Option Floating :=
  match literal? word with
  | some l => Floating.ofLiteral? l
  | none => special? word

/-! ## Bare words -/

def Scalar.ofBare? (word : List Char) : Option Scalar :=
  if word = ['t', 'r', 'u', 'e'] then some (.bool true)
  else if word = ['f', 'a', 'l', 's', 'e'] then some (.bool false)
  else
    match Moment.ofChars? word, integer? word with
    | some m, _ => some (.moment m)
    | none, some n => some (.integer n)
    | none, none => (float? word).map .float

end NamedQuery.Toml
