import NamedQuery.Fields
import NamedQuery.Numeric.Shortest

/-! # JSON values

Numbers are of two kinds that are never equal to each other: integers of at most 64 bits, signed or
unsigned, and finite floating-point numbers. Objects are fields in ascending order. -/

namespace NamedQuery

open Numeric (Binary64)

/-- The integers that a 64-bit word can hold, signed or unsigned. -/
def Json.IsWord (n : Int) : Prop := -0x8000000000000000 ≤ n ∧ n < 0x10000000000000000

instance (n : Int) : Decidable (Json.IsWord n) := by
  unfold Json.IsWord
  infer_instance

inductive Json.Number where
  | integer (n : Int) (isWord : IsWord n := by decide)
  | float (x : Binary64)
deriving DecidableEq

inductive Json where
  | null
  | bool (b : Bool)
  | number (n : Json.Number)
  | string (s : String)
  | array (items : List Json)
  | object (fields : List (String × Json))
deriving Inhabited

namespace Json

/-! ## Numbers -/

namespace Number

def text : Number → String
  | integer n _ => toString n
  | float x => x.text

/-- The place of the nearest floating-point number in the order of all of them. -/
def key : Number → Int
  | integer n _ => Numeric.keyOfInt n
  | float x => x.key

/-- Equality of numbers. The two floating-point zeros are equal. -/
def same : Number → Number → Bool
  | integer m _, integer n _ => m == n
  | float x, float y => x.key == y.key
  | _, _ => false

/-- The number as an unsigned 64-bit integer. Floating-point numbers are none, whatever their
value. -/
def natural? : Number → Option Nat
  | integer n _ => if 0 ≤ n then some n.toNat else none
  | float _ => none

def signed? : Number → Option Int
  | integer n _ => if n < 0x8000000000000000 then some n else none
  | float _ => none

theorem same_refl (n : Number) : n.same n := by
  cases n <;> simp [same]

theorem same_comm (m n : Number) : m.same n = n.same m := by
  cases m <;> cases n <;> simp [same, Bool.beq_comm]

end Number

/-- An integer as a JSON number, or as a string of its decimal text if no word can hold it. -/
def ofInt (n : Int) : Json :=
  if h : IsWord n then .number (.integer n h) else .string (toString n)

def ofNat (n : Nat) : Json := ofInt n

/-! ## Equality -/

mutual
def same : Json → Json → Bool
  | null, null => true
  | bool a, bool b => a == b
  | number m, number n => m.same n
  | string s, string t => s == t
  | array xs, array ys => sameItems xs ys
  | object xs, object ys => sameFields xs ys
  | _, _ => false
def sameItems : List Json → List Json → Bool
  | [], [] => true
  | x :: xs, y :: ys => x.same y && sameItems xs ys
  | _, _ => false
def sameFields : List (String × Json) → List (String × Json) → Bool
  | [], [] => true
  | (k, x) :: xs, (l, y) :: ys => k == l && x.same y && sameFields xs ys
  | _, _ => false
end

instance : BEq Json := ⟨same⟩

mutual
theorem same_refl : ∀ x : Json, x.same x
  | null => rfl
  | bool b => by simp [same]
  | number n => by simpa [same] using n.same_refl
  | string s => by simp [same]
  | array xs => by simpa [same] using sameItems_refl xs
  | object xs => by simpa [same] using sameFields_refl xs
theorem sameItems_refl : ∀ xs : List Json, sameItems xs xs
  | [] => rfl
  | x :: xs => by simp [sameItems, same_refl x, sameItems_refl xs]
theorem sameFields_refl : ∀ xs : List (String × Json), sameFields xs xs
  | [] => rfl
  | (k, x) :: xs => by simp [sameFields, same_refl x, sameFields_refl xs]
end

mutual
theorem same_comm : ∀ x y : Json, x.same y = y.same x
  | null, y => by cases y <;> rfl
  | bool a, y => by cases y <;> simp [same, Bool.beq_comm]
  | number m, y => by cases y <;> simp [same, Number.same_comm m]
  | string s, y => by cases y <;> simp [same, Bool.beq_comm]
  | array xs, y => by
    cases y with
    | array ys => simpa [same] using sameItems_comm xs ys
    | _ => rfl
  | object xs, y => by
    cases y with
    | object ys => simpa [same] using sameFields_comm xs ys
    | _ => rfl
theorem sameItems_comm : ∀ xs ys : List Json, sameItems xs ys = sameItems ys xs
  | [], ys => by cases ys <;> rfl
  | x :: xs, ys => by
    cases ys with
    | nil => rfl
    | cons y ys => simp [sameItems, same_comm x y, sameItems_comm xs ys]
theorem sameFields_comm : ∀ xs ys : List (String × Json), sameFields xs ys = sameFields ys xs
  | [], ys => by cases ys <;> rfl
  | (k, x) :: xs, ys => by
    cases ys with
    | nil => rfl
    | cons y ys =>
      simp [sameFields, same_comm x y.2, sameFields_comm xs ys, Bool.beq_comm (a := k)]
end

/-! ## Parts -/

def isNull : Json → Bool
  | null => true
  | _ => false

def string? : Json → Option String
  | string s => some s
  | _ => none

def object? : Json → Option (Fields Json)
  | object fields => some fields
  | _ => none

def array? : Json → Option (List Json)
  | array items => some items
  | _ => none

end Json

end NamedQuery
