import NamedQuery.Identifier.Words
import NamedQuery.Store.Window

/-! # The order of rows

Values are compared by rules that depend on their kinds, down to their texts where the kinds differ.
`compareValues_eq_comparePlaces` shows that these rules are one lexicographic comparison of places:
first the class of a value, then its number, then its text. So they are a total preorder, and
sorting by them is a stable sort (`sorts_sort`).

Values of different classes are compared by their texts, and these differ in their first
characters: a quote, a digit or a minus sign, a bracket, a letter, a brace ascend. -/

namespace NamedQuery.Store

/-! ## First characters of texts -/

/-- The class of values whose texts begin with a character. -/
def classOfHead (c : Char) : Nat :=
  if c.toNat < 0x2D then 1
  else if c.toNat < 0x40 then 2
  else if c.toNat < 0x60 then 3
  else if c.toNat < 0x78 then 4
  else 5

theorem classOfHead_of_isDigit {c : Char} (h : c.isDigit) : classOfHead c = 2 := by
  have hrange := Identifier.isDigit_iff.1 h
  rw [classOfHead, if_neg (by omega), if_pos (by omega)]

theorem lt_of_classOfHead_lt {c d : Char} (h : classOfHead c < classOfHead d) : c < d := by
  rw [Char.lt_def, UInt32.lt_iff_toNat_lt]
  show c.toNat < d.toNat
  grind [classOfHead]

def HeadClass (text : List Char) (n : Nat) : Prop :=
  ∃ c rest, text = c :: rest ∧ classOfHead c = n

theorem headClass_repr (n : Nat) : HeadClass n.repr.toList 2 := by
  rw [Nat.toList_repr]
  cases hdigits : Nat.toDigits 10 n with
  | nil => exact absurd hdigits Nat.toDigits_ne_nil
  | cons c rest =>
    refine ⟨c, rest, rfl, classOfHead_of_isDigit ?_⟩
    exact Nat.isDigit_of_mem_toDigits (by omega) (by omega) (hdigits ▸ List.mem_cons_self ..)

theorem headClass_render (layout : Numeric.Layout) (d : Numeric.Decimal) :
    HeadClass (layout.render d).toList 2 := by
  obtain ⟨c, rest, hdigits, hclass⟩ := headClass_repr d.digits
  unfold Numeric.Layout.render
  simp only []
  split
  · split
    · exact ⟨'0', _, by simp [String.toList_append]; rfl, rfl⟩
    · rw [String.toList_append, String.toList_append, String.toList_ofList, hdigits, List.append_assoc]
      exact ⟨c, _, by simp; rfl, hclass⟩
  · rw [String.toList_append, String.toList_append, String.toList_append, String.toList_ofList,
      hdigits]
    exact ⟨c, _, by simp; rfl, hclass⟩

theorem headClass_number (n : Json.Number) : HeadClass n.text.toList 2 := by
  cases n with
  | integer n isWord =>
    cases n with
    | ofNat n => exact headClass_repr n
    | negSucc n =>
      refine ⟨'-', (n + 1).repr.toList, ?_, rfl⟩
      show ("-" ++ (n + 1).repr).toList = '-' :: (n + 1).repr.toList
      rw [String.toList_append]
      rfl
  | float x =>
    rw [Json.Number.text, Numeric.Binary64.text, String.toList_append]
    cases x.negative with
    | true => exact ⟨'-', _, rfl, rfl⟩
    | false =>
      show HeadClass (if x.rank = 0 then "0.0" else _).toList 2
      split
      · exact ⟨'0', _, rfl, rfl⟩
      · exact headClass_render _ _

/-! ## Places -/

/-- The class of a value: missing values, strings, numbers, lists, truth values, maps. -/
def classOf : Json → Nat
  | .null => 0
  | .string _ => 1
  | .number _ => 2
  | .array _ => 3
  | .bool _ => 4
  | .object _ => 5

theorem headClass_text {x : Json} (h : x.isNull = false) : HeadClass x.text.toList (classOf x) := by
  rw [Json.text, String.toList_ofList]
  cases x with
  | null => cases h
  | bool b => cases b <;> exact ⟨_, _, rfl, rfl⟩
  | number n => exact headClass_number n
  | string s => exact ⟨'"', _, rfl, rfl⟩
  | array items => cases items <;> exact ⟨'[', _, rfl, rfl⟩
  | object fields => cases fields <;> exact ⟨'{', _, rfl, rfl⟩

theorem compare_text_of_class_lt {x y : Json} (hx : x.isNull = false) (hy : y.isNull = false)
    (h : classOf x < classOf y) : compare x.text y.text = .lt := by
  obtain ⟨c, cs, htext, hc⟩ := headClass_text hx
  obtain ⟨d, ds, htext', hd⟩ := headClass_text hy
  have hlt : x.text < y.text := by
    show x.text.toList < y.text.toList
    rw [htext, htext', List.cons_lt_cons_iff]
    exact .inl (lt_of_classOfHead_lt (by rw [hc, hd]; exact h))
  show compareOfLessAndEq x.text y.text = .lt
  rw [compareOfLessAndEq, if_pos hlt]

theorem compare_text_of_class_gt {x y : Json} (hx : x.isNull = false) (hy : y.isNull = false)
    (h : classOf y < classOf x) : compare x.text y.text = .gt := by
  rw [Std.OrientedOrd.eq_swap, compare_text_of_class_lt hy hx h]
  rfl

/-- Where a value stands in the order: its class, then its number, then its text. -/
structure Place where
  rank : Nat
  number : Int
  text : String

def placeOf : Json → Place
  | .null => ⟨0, 0, ""⟩
  | .string s => ⟨1, 0, s⟩
  | .number n => ⟨2, n.key, ""⟩
  | .array items => ⟨3, 0, (Json.array items).text⟩
  | .bool b => ⟨4, b.toNat, ""⟩
  | .object fields => ⟨5, 0, (Json.object fields).text⟩

/-- The place of a field: one that is missing stands where null does. -/
def placeOfField (value : Option Json) : Place :=
  placeOf (value.getD .null)

def comparePlaces : Place → Place → Ordering :=
  compareLex (compareOn Place.rank) (compareLex (compareOn Place.number) (compareOn Place.text))

instance : Std.TransCmp comparePlaces :=
  inferInstanceAs (Std.TransCmp (compareLex _ _))

theorem rank_placeOf (x : Json) : (placeOf x).rank = classOf x := by
  cases x <;> rfl

theorem comparePlaces_eq (p q : Place) :
    comparePlaces p q =
      (compare p.rank q.rank).then ((compare p.number q.number).then (compare p.text q.text)) := rfl

theorem comparePlaces_of_class_lt {x y : Json} (h : classOf x < classOf y) :
    comparePlaces (placeOf x) (placeOf y) = .lt := by
  rw [comparePlaces_eq, rank_placeOf, rank_placeOf, Nat.compare_eq_lt.2 h]
  rfl

theorem comparePlaces_of_class_gt {x y : Json} (h : classOf y < classOf x) :
    comparePlaces (placeOf x) (placeOf y) = .gt := by
  rw [comparePlaces_eq, rank_placeOf, rank_placeOf, Nat.compare_eq_gt.2 h]
  rfl

/-- Values of different classes are compared by their texts. -/
theorem compareValues_of_class_ne {x y : Json} (hx : x.isNull = false) (hy : y.isNull = false)
    (h : classOf x ≠ classOf y) : compareValues (some x) (some y) = compare x.text y.text := by
  cases x <;> cases y <;> first
    | exact absurd rfl h
    | exact absurd hx Bool.noConfusion
    | exact absurd hy Bool.noConfusion
    | rfl

/-- Values of one class are compared as numbers, truth values or texts. -/
theorem compareValues_of_class_eq {x y : Json} (hx : x.isNull = false)
    (h : classOf x = classOf y) :
    compareValues (some x) (some y) = comparePlaces (placeOf x) (placeOf y) := by
  cases x with
  | null => cases hx
  | bool a =>
    cases y <;> try cases h
    case bool b => cases a <;> cases b <;> rfl
  | number m =>
    cases y <;> try cases h
    case number n =>
      -- Class and text of two numbers are the same, their keys decide.
      show compare m.key n.key = (compare 2 2).then ((compare m.key n.key).then (compare "" ""))
      cases compare m.key n.key <;> rfl
  | string s =>
    cases y <;> try cases h
    case string t => rfl
  | array xs =>
    cases y <;> try cases h
    case array ys => rfl
  | object xs =>
    cases y <;> try cases h
    case object ys => rfl

theorem compareValues_of_present {x y : Json} (hx : x.isNull = false) (hy : y.isNull = false) :
    compareValues (some x) (some y) = comparePlaces (placeOf x) (placeOf y) := by
  rcases Nat.lt_trichotomy (classOf x) (classOf y) with hlt | heq | hgt
  · rw [compareValues_of_class_ne hx hy (Nat.ne_of_lt hlt), compare_text_of_class_lt hx hy hlt,
      comparePlaces_of_class_lt hlt]
  · exact compareValues_of_class_eq hx heq
  · rw [compareValues_of_class_ne hx hy (Nat.ne_of_gt hgt), compare_text_of_class_gt hx hy hgt,
      comparePlaces_of_class_gt hgt]

theorem present_getD (value : Option Json) :
    (present value = none ∧ value.getD .null = .null) ∨
      ∃ x, present value = some x ∧ value = some x ∧ x.isNull = false := by
  cases value with
  | none => exact .inl ⟨rfl, rfl⟩
  | some x =>
    cases hx : x.isNull with
    | true =>
      refine .inl ⟨by simp [present, hx], ?_⟩
      cases x <;> first | rfl | cases hx
    | false => exact .inr ⟨x, by simp [present, hx], rfl, hx⟩

theorem classOf_pos {x : Json} (hx : x.isNull = false) : classOf .null < classOf x := by
  cases x <;> first | (cases hx; done) | exact Nat.succ_pos _

/-- Comparing the values of a field is comparing their places. -/
theorem compareValues_eq_comparePlaces (x y : Option Json) :
    compareValues x y = comparePlaces (placeOfField x) (placeOfField y) := by
  rcases present_getD x with ⟨hx, hxnull⟩ | ⟨a, hx, rfl, ha⟩ <;>
    rcases present_getD y with ⟨hy, hynull⟩ | ⟨b, hy, rfl, hb⟩
  · rw [compareValues, hx, hy, placeOfField, placeOfField, hxnull, hynull]
    exact Std.ReflCmp.compare_self.symm
  · rw [compareValues, hx, hy, placeOfField, placeOfField, hxnull]
    exact (comparePlaces_of_class_lt (classOf_pos hb)).symm
  · rw [compareValues, hx, hy, placeOfField, placeOfField, hynull]
    exact (comparePlaces_of_class_gt (classOf_pos ha)).symm
  · exact compareValues_of_present ha hb

instance : Std.TransCmp compareValues where
  eq_swap := by
    intro x y
    rw [compareValues_eq_comparePlaces, compareValues_eq_comparePlaces y]
    exact Std.OrientedCmp.eq_swap
  isLE_trans := by
    intro x y z hxy hyz
    rw [compareValues_eq_comparePlaces] at hxy hyz ⊢
    exact Std.TransCmp.isLE_trans hxy hyz

/-! ## Rows -/

theorem compareRows_swap (order : RowOrder) (x y : Row) :
    order.compareRows x y = (order.compareRows y x).swap := by
  have hswap : compareValues (x.get? order.field) (y.get? order.field) =
      (compareValues (y.get? order.field) (x.get? order.field)).swap := Std.OrientedCmp.eq_swap
  unfold RowOrder.compareRows
  rw [hswap]
  cases order.descending <;> rfl

theorem compareRows_isLE_trans (order : RowOrder) {x y z : Row}
    (hxy : (order.compareRows x y).isLE) (hyz : (order.compareRows y z).isLE) :
    (order.compareRows x z).isLE := by
  unfold RowOrder.compareRows at *
  cases hdescending : order.descending with
  | false =>
    simp only [hdescending, Bool.false_eq_true, if_false] at *
    exact Std.TransCmp.isLE_trans hxy hyz
  | true =>
    simp only [hdescending, if_true] at *
    rw [← Std.OrientedCmp.eq_swap] at *
    exact Std.TransCmp.isLE_trans hyz hxy

theorem compareRows_isLE_total (order : RowOrder) (x y : Row) :
    (order.compareRows x y).isLE || (order.compareRows y x).isLE := by
  rw [compareRows_swap order y x]
  cases order.compareRows x y <;> rfl

/-! ## Stable sorting -/

/-- The rows `sorted` are the rows in an order, and rows that the order does not tell apart stand as
they did before. -/
structure RowOrder.Sorts (order : RowOrder) (rows sorted : List Row) : Prop where
  perm : sorted.Perm rows
  ascending : sorted.Pairwise fun x y => order.compareRows x y ≠ .gt
  stable : ∀ x, (sorted.filter fun y => order.compareRows x y = .eq) =
    rows.filter fun y => order.compareRows x y = .eq

theorem isLE_of_compareRows_eq (order : RowOrder) {x y z : Row}
    (hy : order.compareRows x y = .eq) (hz : order.compareRows x z = .eq) :
    (order.compareRows y z).isLE := by
  refine compareRows_isLE_trans order (y := x) ?_ ?_
  · rw [compareRows_swap, hy]
    rfl
  · rw [hz]
    rfl

/-- `sort` is a stable sort. -/
theorem sorts_sort (order : RowOrder) (rows : List Row) : order.Sorts rows (order.sort rows) := by
  have htrans : ∀ x y z : Row, (order.compareRows x y).isLE → (order.compareRows y z).isLE →
      (order.compareRows x z).isLE := fun x y z => compareRows_isLE_trans order
  have htotal := compareRows_isLE_total order
  have hperm : (order.sort rows).Perm rows := List.mergeSort_perm rows _
  refine ⟨hperm, ?_, fun x => ?_⟩
  · refine (List.pairwise_mergeSort htrans htotal rows).imp fun {y z} hle hgt => ?_
    rw [hgt] at hle
    cases hle
  · -- The rows equal to `x` are in order as they stand, so sorting leaves them a sublist of the
    -- result; nothing else of the result is equal to `x`.
    let like (y : Row) : Bool := order.compareRows x y = .eq
    have hpairwise : (rows.filter like).Pairwise fun y z => (order.compareRows y z).isLE := by
      rw [List.pairwise_filter]
      refine List.pairwise_of_forall fun y z hy hz => ?_
      exact isLE_of_compareRows_eq order (of_decide_eq_true hy) (of_decide_eq_true hz)
    have hsublist : (rows.filter like).Sublist (order.sort rows) :=
      List.sublist_mergeSort htrans htotal hpairwise List.filter_sublist
    have hfiltered := hsublist.filter like
    rw [List.filter_filter] at hfiltered
    have hsame : (rows.filter like).Sublist ((order.sort rows).filter like) := by
      simpa using hfiltered
    exact (hsame.eq_of_length (hperm.filter like).length_eq.symm).symm

theorem compareRows_eq_of_ne_gt (order : RowOrder) {x y : Row} (hxy : order.compareRows x y ≠ .gt)
    (hyx : order.compareRows y x ≠ .gt) : order.compareRows x y = .eq := by
  rw [compareRows_swap] at hyx
  cases h : order.compareRows x y with
  | lt =>
    rw [h] at hyx
    exact absurd rfl hyx
  | eq => rfl
  | gt => exact absurd h hxy

theorem compareRows_head_ne_gt (order : RowOrder) {x y : Row} {rows : List Row}
    (h : (x :: rows).Pairwise fun y z => order.compareRows y z ≠ .gt) (hy : y ∈ x :: rows) :
    order.compareRows x y ≠ .gt := by
  rcases List.mem_cons.1 hy with rfl | hmem
  · have hswap := compareRows_swap order y y
    intro hgt
    rw [hgt] at hswap
    cases hswap
  · exact (List.pairwise_cons.1 h).1 y hmem

/-- An order determines how rows are sorted: ascending lists of the same rows are the same list if
they agree on the rows that are not told apart. -/
theorem eq_of_ascending_of_stable (order : RowOrder) {xs ys : List Row} (hperm : xs.Perm ys)
    (hxs : xs.Pairwise fun x y => order.compareRows x y ≠ .gt)
    (hys : ys.Pairwise fun x y => order.compareRows x y ≠ .gt)
    (hstable : ∀ x, (xs.filter fun y => order.compareRows x y = .eq) =
      ys.filter fun y => order.compareRows x y = .eq) : xs = ys := by
  induction xs generalizing ys with
  | nil => exact (List.nil_perm.1 hperm).symm
  | cons x xs ih =>
    cases ys with
    | nil => exact absurd (List.perm_nil.1 hperm) (List.cons_ne_nil _ _)
    | cons y ys =>
      -- Either head is a first row of both lists, so they are not told apart, and then they are
      -- the first rows that are equal to `x`.
      have hxy := compareRows_head_ne_gt order hxs (hperm.mem_iff.2 (List.mem_cons_self ..))
      have hyx := compareRows_head_ne_gt order hys (hperm.mem_iff.1 (List.mem_cons_self ..))
      have heq := compareRows_eq_of_ne_gt order hxy hyx
      have hle := compareRows_head_ne_gt order hxs (List.mem_cons_self ..)
      have hself := compareRows_eq_of_ne_gt order hle hle
      have hfirst := hstable x
      rw [List.filter_cons, List.filter_cons, if_pos (decide_eq_true hself),
        if_pos (decide_eq_true heq)] at hfirst
      obtain rfl := (List.cons.inj hfirst).1
      have htail : ∀ z, (xs.filter fun y => order.compareRows z y = .eq) =
          ys.filter fun y => order.compareRows z y = .eq := by
        intro z
        have hz := hstable z
        rw [List.filter_cons, List.filter_cons] at hz
        split at hz
        · exact (List.cons.inj hz).2
        · exact hz
      rw [ih ((List.perm_cons x).1 hperm) (List.pairwise_cons.1 hxs).2
        (List.pairwise_cons.1 hys).2 htail]

/-- There is only one way to sort rows. -/
theorem RowOrder.Sorts.unique {order : RowOrder} {rows xs ys : List Row}
    (hxs : order.Sorts rows xs) (hys : order.Sorts rows ys) : xs = ys :=
  eq_of_ascending_of_stable order (hxs.perm.trans hys.perm.symm) hxs.ascending hys.ascending
    fun x => (hxs.stable x).trans (hys.stable x).symm

end NamedQuery.Store
