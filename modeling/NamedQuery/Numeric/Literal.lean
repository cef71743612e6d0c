import NamedQuery.Numeric.Binary64

/-! # Decimal literals

A literal is kept as its digits (`Literal`), and then read as a floating-point number, in one of two
ways. `Literal.binary64?` takes a short cut that may miss the nearest number by a step, and
`Literal.nearest?` takes all digits into account, however many there are. -/

namespace NamedQuery.Numeric

/-- A decimal literal as it is written: digits before the point, digits after it if there is a
point, and an exponent if there is one. -/
structure Literal where
  negative : Bool
  whole : List Nat
  fraction : Option (List Nat)
  exponent : Option Int
deriving DecidableEq

def ofDigits (digits : List Nat) : Nat :=
  digits.foldl (fun n d => n * 10 + d) 0

/-! ## By a significand

The digits are gathered into a 64-bit significand, the digits that no longer fit are dropped, and the
nearest number to the significand is multiplied by the nearest number to a power of ten. This is exact
for literals of up to fifteen digits with a small exponent. -/

def maxSignificand : Nat := 0xFFFFFFFFFFFFFFFF

/-- A significand and a power of ten to scale it by. -/
structure Scaled where
  significand : Nat
  exponent : Int
deriving DecidableEq

namespace Scaled

/-- Takes in digits before the point. Once a digit does not fit, it and all later ones only count
towards the exponent. -/
def takeWhole : Scaled → List Nat → Scaled
  | x, [] => x
  | x, d :: digits =>
    let next := x.significand * 10 + d
    if next ≤ maxSignificand then takeWhole ⟨next, x.exponent⟩ digits
    else ⟨x.significand, x.exponent + (digits.length + 1)⟩

/-- Takes in digits after the point. From the first one that does not fit they are ignored. -/
def takeFraction : Scaled → List Nat → Scaled
  | x, [] => x
  | x, d :: digits =>
    let next := x.significand * 10 + d
    if next ≤ maxSignificand then takeFraction ⟨next, x.exponent - 1⟩ digits else x

end Scaled

def Literal.scaled (l : Literal) : Scaled :=
  let x := Scaled.takeFraction (Scaled.takeWhole ⟨0, 0⟩ l.whole) (l.fraction.getD [])
  ⟨x.significand, x.exponent + l.exponent.getD 0⟩

/-- The greatest power of ten that a number is scaled by in one step. -/
def maxPower : Nat := 308

/-- Divides by `10 ^ power`, in steps of `10 ^ 308`. -/
def scaleDown (rank power : Nat) : Nat :=
  if power ≤ maxPower then divRank rank (nearestRank (Nat.pow 10 power) 1)
  else if rank = 0 then 0
  else scaleDown (divRank rank (nearestRank (Nat.pow 10 maxPower) 1)) (power - maxPower)
termination_by power
decreasing_by
  simp only [maxPower] at *
  omega

/-- The rank of a scaled significand, or nothing when it is too large. -/
def Scaled.rank? (x : Scaled) : Option Nat :=
  let start := nearestRank x.significand 1
  match x.exponent with
  | .ofNat power =>
    if power ≤ maxPower then
      let rank := mulRank start (nearestRank (Nat.pow 10 power) 1)
      if rank < magnitudes then some rank else none
    else if start = 0 then some 0
    else none
  | .negSucc n => some (scaleDown start (n + 1))

def Literal.binary64? (l : Literal) : Option Binary64 := do
  Binary64.ofRank? l.negative (← l.scaled.rank?)

/-! ## By all digits -/

/-- Below `10 ^ minMagnitude` every number is nearer to zero than to any other. -/
def minMagnitude : Int := -324

/-- No finite number reaches `10 ^ maxMagnitude`. -/
def maxMagnitude : Int := 309

def Literal.nearest? (l : Literal) : Option Binary64 :=
  let fraction := l.fraction.getD []
  let digits := ofDigits (l.whole ++ fraction)
  let exponent := l.exponent.getD 0 - fraction.length
  -- The magnitude lies between this power of ten and the next one below it.
  let magnitude := (Nat.repr digits).length + exponent
  if digits = 0 ∨ magnitude ≤ minMagnitude then some (.zero l.negative)
  else if maxMagnitude < magnitude then none
  else
    match exponent with
    | .ofNat power => Binary64.ofRank? l.negative (nearestRank (digits * Nat.pow 10 power) 1)
    | .negSucc n => Binary64.ofRank? l.negative (nearestRank digits (Nat.pow 10 (n + 1)))

end NamedQuery.Numeric
