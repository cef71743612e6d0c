import NamedQuery.Store.Matching
import NamedQuery.Store.Problem
import NamedQuery.Text.Classes

/-! # Windows on rows

What is shown of a list of rows: the rows in an order, without the first few, up to a number of
them. -/

namespace NamedQuery.Store

/-! ## Order of values -/

/-- A value that counts for order: null counts as missing. -/
def present (value : Option Json) : Option Json :=
  value.filter (!·.isNull)

/-- The order of the values of a field. Missing values come first; numbers, strings and truth
values have their own orders, and all else is ordered by its text. -/
def compareValues (x y : Option Json) : Ordering :=
  match present x, present y with
  | none, none => .eq
  | none, some _ => .lt
  | some _, none => .gt
  | some (.number m), some (.number n) => compare m.key n.key
  | some (.string s), some (.string t) => compare s t
  | some (.bool a), some (.bool b) => compare a b
  | some x, some y => compare x.text y.text

structure RowOrder where
  field : String
  descending : Bool
deriving DecidableEq

/-- The order that a text names: a field, and perhaps `desc` after it. -/
def RowOrder.ofText (text : String) : RowOrder :=
  match Text.words text.toList with
  | [] => ⟨"", false⟩
  | [field] => ⟨String.ofList field, false⟩
  | field :: direction :: _ =>
    ⟨String.ofList field, direction.map Char.toLower = ['d', 'e', 's', 'c']⟩

def RowOrder.compareRows (order : RowOrder) (x y : Row) : Ordering :=
  let ordering := compareValues (x.get? order.field) (y.get? order.field)
  if order.descending then ordering.swap else ordering

/-- Sorts rows; rows that compare equal stay in order. -/
def RowOrder.sort (order : RowOrder) (rows : List Row) : List Row :=
  rows.mergeSort fun x y => (order.compareRows x y).isLE

/-! ## Windows -/

structure Window where
  order : Option RowOrder
  offset : Nat
  limit : Option Nat
deriving DecidableEq

def Window.apply (window : Window) (rows : List Row) : List Row :=
  let sorted := match window.order with
    | none => rows
    | some order => order.sort rows
  let rest := sorted.drop window.offset
  match window.limit with
  | none => rest
  | some limit => rest.take limit

/-! ## Reading options -/

def readOrder (options : Options) : Except Problem (Option RowOrder) :=
  match options.get? "order" with
  | none => .ok none
  | some .null => .ok none
  | some (.string text) => .ok (some (.ofText text))
  | some _ => .error .badOrder

def readCount (options : Options) (name : String) : Except Problem (Option Nat) :=
  match options.get? name with
  | none => .ok none
  | some .null => .ok none
  | some (.number n) =>
    match n.natural? with
    | some count => .ok (some count)
    | none => .error (.badCount name)
  | some _ => .error (.badCount name)

def readWindow (options : Options) : Except Problem Window := do
  let order ← readOrder options
  let offset ← readCount options "offset"
  let limit ← readCount options "limit"
  return ⟨order, offset.getD 0, limit⟩

/-- The conditions in an option of a call; without any every row matches. -/
def readConditions (options : Options) (name : String) : Except Problem (Fields Json) :=
  match options.get? name with
  | none => .ok []
  | some .null => .ok []
  | some (.object conditions) => .ok conditions
  | some _ => .error .badConditions

end NamedQuery.Store
