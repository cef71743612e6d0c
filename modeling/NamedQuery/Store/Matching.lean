import NamedQuery.Json.Printer
import NamedQuery.Store.Basic

/-! # Matching rows

When a row matches conditions, and which rows a relation leads to. Values are compared loosely: a
number equals a string that writes it, and numbers of different kinds are equal if they have the same
nearest floating-point number. -/

namespace NamedQuery.Store

/-! ## Loose equality -/

def looselyEqual (x y : Json) : Bool :=
  x.same y ||
    match x, y with
    | .number m, .number n => m.key == n.key
    | .number n, .string s => n.text == s
    | .string s, .number n => n.text == s
    | _, _ => false

theorem looselyEqual_comm (x y : Json) : looselyEqual x y = looselyEqual y x := by
  simp only [looselyEqual, Json.same_comm x y]
  cases x <;> cases y <;> simp [Bool.beq_comm]

/-! ## Conditions -/

mutual
/-- Whether a field has an expected value. A list expects any of its members, and null expects
nothing or null. -/
def satisfies (actual : Option Json) : (expected : Json) → Bool
  | .array options => satisfiesAny actual options
  | .null => actual.all Json.isNull
  | .bool b => actual.any fun value => looselyEqual value (.bool b)
  | .number n => actual.any fun value => looselyEqual value (.number n)
  | .string s => actual.any fun value => looselyEqual value (.string s)
  | .object fields => actual.any fun value => looselyEqual value (.object fields)
def satisfiesAny (actual : Option Json) : List Json → Bool
  | [] => false
  | option :: rest => satisfies actual option || satisfiesAny actual rest
end

def satisfiesAll (conditions : Fields Json) (row : Row) : Bool :=
  conditions.all fun (field, expected) => satisfies (row.get? field) expected

/-! ## Relations -/

/-- The fields that a relation compares: one of the row it starts from, and one of the rows of the
other table. -/
def Relation.fields (relation : Relation) : String × String :=
  match relation.kind with
  | .hasMany => ("id", relation.foreignKey)
  | .belongsTo => (relation.foreignKey, "id")

/-- Whether the value of a field, if there is one, loosely equals a key. -/
def hasKey (row : Row) (field : String) (key : Json) : Bool :=
  (row.get? field).any fun value => looselyEqual value key

/-- The rows that a relation leads to. A row whose key is missing or null leads nowhere. -/
def related (store : Store) (relation : Relation) (row : Row) : List Row :=
  let (ours, theirs) := Relation.fields relation
  match row.get? ours with
  | none => []
  | some .null => []
  | some key => (store.rows relation.table).filter (hasKey · theirs key)

end NamedQuery.Store
