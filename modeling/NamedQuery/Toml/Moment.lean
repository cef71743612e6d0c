import NamedQuery.Numeric.Literal
import NamedQuery.Text.Classes

/-! # Moments

Dates and times as TOML writes them: a date, a time of day, or both together, which may be fixed by
an offset from universal time. Reading takes a value from the front of a text and leaves the rest;
writing gives every moment one form. -/

namespace NamedQuery.Toml

structure Date where
  year : Nat
  month : Nat
  day : Nat
deriving DecidableEq

structure Time where
  hour : Nat
  minute : Nat
  second : Nat
  nanosecond : Nat
deriving DecidableEq

/-- How far local time is ahead of universal time. -/
inductive Offset where
  | universal
  | ahead (minutes : Int)
deriving DecidableEq

inductive Moment where
  | date (date : Date)
  | time (time : Time)
  | dateTime (date : Date) (time : Time) (offset : Option Offset)
deriving DecidableEq

/-! ## Reading -/

/-- A number of exactly so many digits at the front of a text. -/
def takeNumber? (count : Nat) (cs : List Char) : Option (Nat × List Char) :=
  let digits := cs.take count
  if digits.length = count ∧ digits.all Char.isDigit then
    some (Numeric.ofDigits (digits.map Text.digitValue), cs.drop count)
  else none

/-- A number of two digits between two bounds. -/
def takeTwoDigits? (low high : Nat) (cs : List Char) : Option (Nat × List Char) := do
  let (n, rest) ← takeNumber? 2 cs
  if low ≤ n ∧ n ≤ high then some (n, rest) else none

def expect? (c : Char) : List Char → Option (List Char)
  | d :: rest => if d = c then some rest else none
  | [] => none

def isLeapYear (year : Nat) : Bool :=
  year % 4 == 0 && (year % 100 != 0 || year % 400 == 0)

def daysInMonth (year month : Nat) : Nat :=
  if month = 2 then if isLeapYear year then 29 else 28
  else if month = 4 ∨ month = 6 ∨ month = 9 ∨ month = 11 then 30
  else 31

/-- A date such as `1979-05-27`. -/
def Date.take? (cs : List Char) : Option (Date × List Char) := do
  let (year, rest) ← takeNumber? 4 cs
  let (month, rest) ← takeTwoDigits? 1 12 (← expect? '-' rest)
  let (day, rest) ← takeTwoDigits? 1 (daysInMonth year month) (← expect? '-' rest)
  return (⟨year, month, day⟩, rest)

/-- The nanoseconds that a decimal fraction of a second comes to; digits beyond the ninth are cut
off. -/
def nanoseconds (digits : List Nat) : Nat :=
  let kept := digits.take 9
  Numeric.ofDigits kept * Nat.pow 10 (9 - kept.length)

/-- A time such as `07:32:00` or `07:32:00.5`. A minute may have a sixty-first second. -/
def Time.take? (cs : List Char) : Option (Time × List Char) := do
  let (hour, rest) ← takeTwoDigits? 0 23 cs
  let (minute, rest) ← takeTwoDigits? 0 59 (← expect? ':' rest)
  let (second, rest) ← takeTwoDigits? 0 60 (← expect? ':' rest)
  match rest with
  | '.' :: more =>
    match Text.takeDigits more with
    | ([], _) => return (⟨hour, minute, second, 0⟩, rest)
    | (digits, rest) => return (⟨hour, minute, second, nanoseconds digits⟩, rest)
  | _ => return (⟨hour, minute, second, 0⟩, rest)

/-- An offset: `Z`, or hours and minutes with a sign. -/
def Offset.ofChars? : List Char → Option Offset
  | [] => none
  | c :: cs =>
    if c = 'Z' ∨ c = 'z' then if cs.isEmpty then some .universal else none
    else if c = '+' ∨ c = '-' then do
      let (hours, rest) ← takeTwoDigits? 0 23 cs
      let (minutes, rest) ← takeTwoDigits? 0 59 (← expect? ':' rest)
      let minutes : Int := (hours * 60 + minutes : Nat)
      if rest.isEmpty then some (.ahead (if c = '-' then -minutes else minutes)) else none
    else none

/-- The moment that a text is. The letter `T` stands between date and time. -/
def Moment.ofChars? (cs : List Char) : Option Moment :=
  match Date.take? cs with
  | some (day, []) => some (.date day)
  | some (day, c :: cs) =>
    if c = 'T' ∨ c = 't' then
      match Time.take? cs with
      | some (clock, []) => some (.dateTime day clock none)
      | some (clock, rest) => (Offset.ofChars? rest).map fun offset => .dateTime day clock offset
      | none => none
    else none
  | none =>
    match Time.take? cs with
    | some (clock, []) => some (.time clock)
    | _ => none

/-! ## Writing -/

def padded (width n : Nat) : String :=
  let digits := Nat.repr n
  String.ofList (List.replicate (width - digits.length) '0') ++ digits

def Date.text (date : Date) : String :=
  padded 4 date.year ++ "-" ++ padded 2 date.month ++ "-" ++ padded 2 date.day

def fractionText (nanosecond : Nat) : String :=
  if nanosecond = 0 then ""
  else
    let digits := (padded 9 nanosecond).toList.reverse.dropWhile (· = '0')
    "." ++ String.ofList digits.reverse

def Time.text (time : Time) : String :=
  padded 2 time.hour ++ ":" ++ padded 2 time.minute ++ ":" ++ padded 2 time.second ++
    fractionText time.nanosecond

def Offset.text : Offset → String
  | universal => "Z"
  | ahead minutes =>
    (if minutes < 0 then "-" else "+") ++ padded 2 (minutes.natAbs / 60) ++ ":" ++
      padded 2 (minutes.natAbs % 60)

def Moment.text : Moment → String
  | date day => day.text
  | time clock => clock.text
  | dateTime day clock offset =>
    day.text ++ "T" ++ clock.text ++ (offset.map Offset.text).getD ""

end NamedQuery.Toml
