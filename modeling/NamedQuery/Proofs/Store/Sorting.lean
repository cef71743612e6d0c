import NamedQuery.Proofs.Store.Steps
import NamedQuery.Proofs.Store.Window

/-! # Searches in an order

A search that asks for an order and nothing else shows all the rows that are selected, sorted by a
field. `InOrder` says what this means in terms of the values of the field alone, for both directions,
and it is what a stable sort by `compareValues` comes to (`inOrder_of_sorts`). -/

namespace NamedQuery.Store

/-! ## Order texts -/

/-- A name that is one word: it is not empty and holds no white space. -/
def OneWord (name : String) : Prop :=
  name.toList ≠ [] ∧ ∀ c ∈ name.toList, Text.isBlank c = false

theorem OneWord.words {name : String} (h : OneWord name) :
    Text.words name.toList = [name.toList] := by
  rw [Text.words, List.splitOnP_eq_singleton h.2]
  simp [h.1]

theorem OneWord.words_append {name : String} (h : OneWord name) (rest : List Char) :
    Text.words (name.toList ++ ' ' :: rest) = name.toList :: Text.words rest := by
  rw [Text.words, List.splitOnP_append_cons_of_forall_mem h.2 ' ' rfl, List.filter_cons_of_pos,
    Text.words]
  simp [h.1]

/-- The name of a field alone asks for its values in ascending order. -/
theorem ofText_ascending {field : String} (h : OneWord field) :
    RowOrder.ofText field = ⟨field, false⟩ := by
  simp only [RowOrder.ofText, h.words, String.ofList_toList]

/-- A field with `desc` after it asks for its values in descending order. -/
theorem ofText_descending {field : String} (h : OneWord field) :
    RowOrder.ofText (field ++ " desc") = ⟨field, true⟩ := by
  have hdesc : Text.words "desc".toList = ["desc".toList] :=
    OneWord.words ⟨nofun, by simp [Text.isBlank]⟩
  have hwords : Text.words (field ++ " desc").toList = [field.toList, "desc".toList] := by
    rw [String.toList_append]
    exact (h.words_append "desc".toList).trans (congrArg (field.toList :: ·) hdesc)
  simp only [RowOrder.ofText, hwords, String.ofList_toList]
  rfl

/-! ## Rows in order -/

/-- The rows `sorted` are the rows ordered by the values of a field: ascending, or descending, and rows
whose values compare equal stand as they did before. -/
structure InOrder (field : String) (descending : Bool) (rows sorted : List Row) : Prop where
  perm : sorted.Perm rows
  ordered : sorted.Pairwise fun x y =>
    compareValues (x.get? field) (y.get? field) ≠ if descending then .lt else .gt
  stable : ∀ x : Row,
    (sorted.filter fun y => compareValues (x.get? field) (y.get? field) = .eq) =
      rows.filter fun y => compareValues (x.get? field) (y.get? field) = .eq

theorem compareRows_eq_iff (order : RowOrder) {x y : Row} :
    order.compareRows x y = .eq ↔ compareValues (x.get? order.field) (y.get? order.field) = .eq := by
  unfold RowOrder.compareRows
  cases order.descending with
  | false => exact Iff.rfl
  | true => exact Ordering.swap_eq_eq

/-- The greater row is the one with the greater value, or with the smaller one if values descend. -/
theorem compareRows_eq_gt_iff (order : RowOrder) {x y : Row} :
    order.compareRows x y = .gt ↔ compareValues (x.get? order.field) (y.get? order.field) =
      if order.descending then .lt else .gt := by
  unfold RowOrder.compareRows
  cases order.descending with
  | false => exact Iff.rfl
  | true => exact Ordering.swap_eq_gt

theorem inOrder_of_sorts {order : RowOrder} {rows sorted : List Row}
    (h : order.Sorts rows sorted) : InOrder order.field order.descending rows sorted where
  perm := h.perm
  ordered := h.ascending.imp fun hnotGreater hvalues =>
    hnotGreater ((compareRows_eq_gt_iff order).2 hvalues)
  stable := by
    intro x
    have hstable := h.stable x
    simp only [compareRows_eq_iff] at hstable
    exact hstable

/-! ## Searches -/

/-- The options of a search ask for an order, and for no conditions and no window. -/
structure AsksForOrder (text : String) (options : Options) : Prop where
  order : options.get? "order" = some (.string text)
  conditions : ConditionsIn (options.get? "conditions") []
  offset : Silent (options.get? "offset")
  limit : Silent (options.get? "limit")

theorem Shows.sorts {text : String} {options : Options} {rows shown : List Row}
    (hasks : AsksForOrder text options) (h : Shows options.get? rows shown) :
    (RowOrder.ofText text).Sorts rows shown := by
  obtain ⟨sorted, offset, limit, hsorted, hoffset, hlimit, rfl⟩ := h
  obtain rfl := hoffset.unique (.none hasks.offset)
  obtain rfl := hlimit.unique (.none hasks.limit)
  rw [hasks.order] at hsorted
  cases hsorted with
  | none hsilent => rcases hsilent with h | h <;> cases h
  | field hsorts => exact hsorts

/-- Without conditions all rows are kept. -/
theorem Kept.eq_of_noConditions {rows kept : List Row} (h : Kept (MeetsAll []) rows kept) :
    kept = rows := by
  obtain ⟨keep, hkeep, rfl⟩ := h
  exact List.filter_eq_self.2 fun row _ => (hkeep row).2 nofun

theorem findAll_sorts (store : Store) (selection : Selection) {text : String} {options : Options}
    (hasks : AsksForOrder text options) :
    ∃ sorted, findAll store options selection = .ok (.many selection.tableName sorted) ∧
      (RowOrder.ofText text).Sorts (selection.rows store) sorted := by
  have hwindow : WellFormedWindow options.get? :=
    ⟨.inr ⟨text, hasks.order⟩, ⟨none, .none hasks.offset⟩, ⟨none, .none hasks.limit⟩⟩
  obtain ⟨kept, shown, hkept, hshows, hfound⟩ :=
    findAll_of_wellFormed store selection hasks.conditions hwindow
  obtain rfl := hkept.eq_of_noConditions
  exact ⟨shown, hfound, hshows.sorts hasks⟩

/-- The order of values is a total preorder, and a search in the order of a field sorts by it: it
answers all rows that were selected, none of them before one that has to come earlier, and rows that
compare equal in the order in which they were selected, whichever the direction is. A field and its
direction are named by the text of the order. -/
theorem search_answers_in_order {text : String} {options : Options}
    (hasks : AsksForOrder text options) (store : Store) (table : String) (earlier : List Call) :
    (∀ x, compareValues x x = .eq) ∧
    (∀ x y, compareValues y x = (compareValues x y).swap) ∧
    (∀ x y z, compareValues x y ≠ .gt → compareValues y z ≠ .gt → compareValues x z ≠ .gt) ∧
    (∀ field, OneWord field → RowOrder.ofText field = ⟨field, false⟩ ∧
      RowOrder.ofText (field ++ " desc") = ⟨field, true⟩) ∧
    ∃ sorted,
      (store.session table).answer earlier (.act ⟨.findAll, options⟩) = .ok (.many sorted) ∧
      InOrder (RowOrder.ofText text).field (RowOrder.ofText text).descending
        ((store.selected table earlier).rows store) sorted := by
  refine ⟨fun x => Std.ReflCmp.compare_self, fun x y => Std.OrientedCmp.eq_swap,
    fun x y z hxy hyz => ?_, fun field hfield => ⟨ofText_ascending hfield, ofText_descending hfield⟩,
    ?_⟩
  · have hle : (compareValues x z).isLE := Std.TransCmp.isLE_trans
      (Ordering.isLE_iff_ne_gt.2 hxy) (Ordering.isLE_iff_ne_gt.2 hyz)
    exact Ordering.isLE_iff_ne_gt.1 hle
  · obtain ⟨sorted, hfound, hsorts⟩ := findAll_sorts store (store.selected table earlier) hasks
    refine ⟨sorted, ?_, inOrder_of_sorts hsorts⟩
    have hanswer : answerOn store (store.selected table earlier) (.act ⟨.findAll, options⟩) =
        .ok (.many sorted) := by
      rw [answerOn, perform, Move.answer_step, hfound]
      rfl
    exact hanswer

/-- The readers among the users come before the authors if roles descend. -/
theorem users_answer_in_order :
    let options : Options := [("order", .string "role desc")]
    AsksForOrder "role desc" options ∧
      ∃ sorted, (blog.session "users").answer [] (.act ⟨.findAll, options⟩) = .ok (.many sorted) ∧
        InOrder "role" true (blog.rows "users") sorted := by
  intro options
  have hasks : AsksForOrder "role desc" options :=
    ⟨rfl, .none (.inl rfl), .inl rfl, .inl rfl⟩
  obtain ⟨-, -, -, hnames, hsorted⟩ := search_answers_in_order hasks blog "users" []
  have hdescending : RowOrder.ofText "role desc" = ⟨"role", true⟩ :=
    (hnames "role" ⟨nofun, by simp [Text.isBlank]⟩).2
  rw [hdescending] at hsorted
  exact ⟨hasks, hsorted⟩

end NamedQuery.Store
