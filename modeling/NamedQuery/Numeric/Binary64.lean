/-! # Finite binary floating-point numbers

A finite number of the binary64 format is a sign and a magnitude, and the magnitudes are counted in
ascending order: rank 0 is zero, rank 1 the smallest number above it, and so on. Comparing two
numbers is then comparing two integers (`Binary64.key`), and rounding is finding a rank. Every
magnitude is a whole number of units of `2 ^ (-1074)`, so all arithmetic here is on `Nat`. -/

namespace NamedQuery.Numeric

/-- How many magnitudes make a block, in which they are equally far apart: `2 ^ 52`. -/
def block : Nat := 0x10000000000000

/-- How many finite magnitudes there are. -/
def magnitudes : Nat := 2047 * block

/-- How many units make one: a unit is `2 ^ (-1074)`. -/
def unitsPerOne : Nat := 1 <<< 1074

/-- A finite number of the binary64 format. Zero has two signs. -/
structure Binary64 where
  negative : Bool
  rank : Nat
  rank_lt : rank < magnitudes
deriving DecidableEq

/-! ## Value and order -/

/-- The magnitude of a rank, in units. Below `2 ^ 53` the ranks are the units themselves; from
there on each block of `2 ^ 52` ranks doubles the step. -/
def units (rank : Nat) : Nat :=
  if rank < 2 * block then rank else (block + rank % block) <<< (rank / block - 1)

namespace Binary64

/-- The place of a number in the order of all numbers; both zeros have the place 0. -/
def key (x : Binary64) : Int :=
  if x.negative then -x.rank else x.rank

def zero (negative : Bool) : Binary64 := ⟨negative, 0, by decide⟩

/-- The number of a sign and a rank, unless the rank is beyond the finite ones. -/
def ofRank? (negative : Bool) (rank : Nat) : Option Binary64 :=
  if h : rank < magnitudes then some ⟨negative, rank, h⟩ else none

end Binary64

/-! ## Rounding to nearest, ties to even -/

/-- The integer nearest to `num / den`; of two, the even one. -/
def roundToEven (num den : Nat) : Nat :=
  let q := num / den
  let r := num % den
  if 2 * r < den then q else if den < 2 * r then q + 1 else q + q % 2

/-- The rank nearest to a quotient `num / den` below one; of two, the even one. -/
def nearestRankBelowOne (num den : Nat) : Nat :=
  let scaled := num * unitsPerOne
  let shift := Nat.log2 (scaled / den) - 52
  shift * block + roundToEven scaled (den <<< shift)

/-- The rank nearest to `num / den`; of two, the even one. Quotients beyond the largest finite
magnitude get ranks that are not below `magnitudes`. A quotient between `2 ^ top` and
`2 ^ (top + 1)` is rounded to 52 binary places after its first one. -/
def nearestRank (num den : Nat) : Nat :=
  if num < den then nearestRankBelowOne num den
  else
    let top := Nat.log2 (num / den)
    (top + 1022) * block +
      (if top ≤ 52 then roundToEven (num <<< (52 - top)) den
        else roundToEven num (den <<< (top - 52)))

def mulRank (a b : Nat) : Nat :=
  nearestRank (units a * units b) (unitsPerOne * unitsPerOne)

def divRank (a b : Nat) : Nat :=
  nearestRank (units a) (units b)

/-- The place of the number nearest to an integer. -/
def keyOfInt (n : Int) : Int :=
  if n < 0 then -(nearestRank n.natAbs 1 : Int) else nearestRank n.natAbs 1

end NamedQuery.Numeric
