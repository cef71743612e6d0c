import NamedQuery.Numeric.Binary64

/-! # Shortest decimal texts

The text of a floating-point number has the fewest digits that still lie closer to this number
than to any other; of several texts with so few digits, the nearest one.

A number with `n` binary places has `n` decimal places, and its digits are those of its multiple by
`5 ^ n`. So the search for digits is a search among integers: on the grid of numbers with one digit,
two digits, up to seventeen digits the two neighbours of the value are tried, and seventeen digits
are enough. -/

namespace NamedQuery.Numeric

/-- `digits * 10 ^ exponent`. -/
structure Decimal where
  digits : Nat
  exponent : Int
deriving DecidableEq

/-! ## Digits -/

/-- How many binary places suffice to write the number of a rank and both its neighbours. Each block
of ranks needs one place less than the block before it. -/
def places (rank : Nat) : Nat := 1074 - (rank / block - 2)

/-- The numbers that round to a rank, as an interval between integers. A unit is the half of
`10 ^ (-places rank)`. The ends belong to it when the rank is even. -/
structure Basin where
  value : Nat
  low : Nat
  high : Nat
  closed : Bool

def basin (rank : Nat) : Basin :=
  let places := places rank
  let scale (n : Nat) := (n >>> (1074 - places)) * Nat.pow 5 places
  { value := 2 * scale (units rank)
    low := scale (units (rank - 1) + units rank)
    high := scale (units rank + units (rank + 1))
    closed := rank % 2 == 0 }

def Basin.contains (b : Basin) (x : Nat) : Bool :=
  if b.closed then b.low ≤ x && x ≤ b.high else b.low < x && x < b.high

/-- The multiple of `step` nearest to the value among its two neighbours that lie in the basin, as
a count of steps. Between two equally near ones the even count is taken. -/
def Basin.nearest? (b : Basin) (step : Nat) : Option Nat :=
  let below := b.value / step
  let above := below + 1
  let down := b.value - below * step
  let up := above * step - b.value
  match b.contains (below * step), b.contains (above * step) with
  | true, true => some (if down < up then below else if up < down then above else below + below % 2)
  | true, false => some below
  | false, true => some above
  | false, false => none

/-- The first hit among a number of grids. The first grid has the multiples of `10 ^ place`, which are
`step` units apart, and each later one has one digit more. -/
def Basin.search? (b : Basin) : (grids step place : Nat) → Option (Nat × Nat)
  | 0, _, _ => none
  | grids + 1, step, place =>
    match b.nearest? step with
    | some digits => some (digits, place)
    | none => search? b grids (step / 10) (place - 1)

/-- How many decimal digits a positive integer has. A binary digit is worth between 0.30102 and
0.30103 decimal ones, so below `2 ^ 60000` the estimate is right or one too low. -/
def digitCount (n : Nat) : Nat :=
  let estimate := Nat.log2 n * 30102 / 100000 + 1
  if n < Nat.pow 10 estimate then estimate else estimate + 1

def Decimal.stripZeros : (fuel : Nat) → Decimal → Decimal
  | 0, d => d
  | fuel + 1, d =>
    if d.digits ≠ 0 ∧ d.digits % 10 = 0 then stripZeros fuel ⟨d.digits / 10, d.exponent + 1⟩ else d

def shortest (rank : Nat) : Decimal :=
  let b := basin rank
  let place := digitCount (b.value / 2) - 1
  let (digits, place) := (b.search? 17 (2 * Nat.pow 10 place) place).getD (b.value / 2, 0)
  Decimal.stripZeros 17 ⟨digits, (place : Int) - places rank⟩

/-! ## Layout -/

/-- How a decimal is written: positionally between two decimal exponents, and otherwise with an
exponent that always has a sign. -/
structure Layout where
  minPositional : Int
  maxPositional : Int

/-- Numbers from `0.00001` up to sixteen digits before the point are written positionally. -/
def Layout.standard : Layout := ⟨-5, 15⟩

/-- The text of a decimal. At least one digit follows the point of a positional text. -/
def Layout.render (layout : Layout) (d : Decimal) : String :=
  let digits := Nat.repr d.digits
  let exponent := d.exponent + digits.length - 1
  if layout.minPositional ≤ exponent ∧ exponent ≤ layout.maxPositional then
    if exponent < 0 then
      "0." ++ String.ofList (List.replicate (exponent.natAbs - 1) '0') ++ digits
    else
      let whole := exponent.toNat + 1
      let padded := digits.toList ++ List.replicate (whole - digits.length) '0'
      let fraction := padded.drop whole
      String.ofList (padded.take whole) ++ "." ++
        String.ofList (if fraction.isEmpty then ['0'] else fraction)
  else
    let tail := digits.toList.drop 1
    String.ofList (digits.toList.take 1) ++
      (if tail.isEmpty then "" else "." ++ String.ofList tail) ++
      (if exponent < 0 then "e-" else "e+") ++ Nat.repr exponent.natAbs

def Binary64.text (x : Binary64) : String :=
  (if x.negative then "-" else "") ++
    (if x.rank = 0 then "0.0" else Layout.standard.render (shortest x.rank))

end NamedQuery.Numeric
