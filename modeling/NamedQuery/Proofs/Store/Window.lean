import NamedQuery.Proofs.Store.Conditions
import NamedQuery.Proofs.Store.RowOrder

/-! # What the options of a search ask for

A search looks up `conditions`, `order`, `offset` and `limit`. `ConditionsIn`, `OrderedBy` and
`CountIn` say what each of them means, and `Shows` is all of the window: rows in an order, without
the first ones, cut to a number. Reading the options fails exactly if one of them is malformed
(`readWindow_of_wellFormed`, `readWindow_of_malformed`), and a search answers the matching rows in
their window (`findAll_of_wellFormed`).

All of this is stated for a way to look options up, so that it also covers callers who pass blank
options for none. -/

namespace NamedQuery.Store

/-- A way to look options up by name. -/
abbrev Ask := String → Option Json

/-- An option that says nothing. -/
def Silent (value : Option Json) : Prop :=
  value = none ∨ value = some .null

/-- The conditions that an option states. -/
inductive ConditionsIn : Option Json → Fields Json → Prop where
  | none {value : Option Json} : Silent value → ConditionsIn value []
  | map {conditions : Fields Json} : ConditionsIn (some (.object conditions)) conditions

/-- The order that an option asks for. -/
inductive OrderedBy (rows : List Row) : Option Json → List Row → Prop where
  | none {value : Option Json} : Silent value → OrderedBy rows value rows
  | field {text : String} {sorted : List Row} :
      (RowOrder.ofText text).Sorts rows sorted → OrderedBy rows (some (.string text)) sorted

/-- The number that an option asks for. -/
inductive CountIn : Option Json → Option Nat → Prop where
  | none {value : Option Json} : Silent value → CountIn value none
  | natural {n : Nat} {isWord : Json.IsWord n} :
      CountIn (some (.number (.integer n isWord))) (some n)

/-- The options of a window are of the right kinds. -/
structure WellFormedWindow (ask : Ask) : Prop where
  order : Silent (ask "order") ∨ ∃ text, ask "order" = some (.string text)
  offset : ∃ count, CountIn (ask "offset") count
  limit : ∃ count, CountIn (ask "limit") count

def cutTo (limit : Option Nat) (rows : List Row) : List Row :=
  match limit with
  | none => rows
  | some n => rows.take n

/-- The rows that a window shows: all of them in the order asked for, without the first ones, cut to
a number. -/
def Shows (ask : Ask) (rows shown : List Row) : Prop :=
  ∃ sorted offset limit, OrderedBy rows (ask "order") sorted ∧ CountIn (ask "offset") offset ∧
    CountIn (ask "limit") limit ∧ shown = cutTo limit (sorted.drop (offset.getD 0))

theorem OrderedBy.unique {rows xs ys : List Row} {value : Option Json}
    (hxs : OrderedBy rows value xs) (hys : OrderedBy rows value ys) : xs = ys := by
  cases hxs with
  | none hsilent =>
    cases hys with
    | none _ => rfl
    | field _ => rcases hsilent with h | h <;> cases h
  | field hsorts =>
    cases hys with
    | none hsilent => rcases hsilent with h | h <;> cases h
    | field hsorts' => exact hsorts.unique hsorts'

theorem CountIn.unique {value : Option Json} {m n : Option Nat} (hm : CountIn value m)
    (hn : CountIn value n) : m = n := by
  cases hm with
  | none hsilent =>
    cases hn with
    | none _ => rfl
    | natural => rcases hsilent with h | h <;> cases h
  | natural =>
    cases hn with
    | none hsilent => rcases hsilent with h | h <;> cases h
    | natural => rfl

/-- A window determines what it shows. -/
theorem Shows.unique {ask : Ask} {rows xs ys : List Row} (hxs : Shows ask rows xs)
    (hys : Shows ask rows ys) : xs = ys := by
  obtain ⟨sorted, offset, limit, hsorted, hoffset, hlimit, rfl⟩ := hxs
  obtain ⟨sorted', offset', limit', hsorted', hoffset', hlimit', rfl⟩ := hys
  rw [hsorted.unique hsorted', hoffset.unique hoffset', hlimit.unique hlimit']

/-! ## Agreeing ways to look options up -/

/-- Two ways to look options up find the same window. -/
structure SameWindow (ask ask' : Ask) : Prop where
  order : ask "order" = ask' "order"
  offset : ask "offset" = ask' "offset"
  limit : ask "limit" = ask' "limit"

theorem SameWindow.symm {ask ask' : Ask} (h : SameWindow ask ask') : SameWindow ask' ask :=
  ⟨h.order.symm, h.offset.symm, h.limit.symm⟩

theorem SameWindow.wellFormed {ask ask' : Ask} (h : SameWindow ask ask')
    (hwindow : WellFormedWindow ask) : WellFormedWindow ask' :=
  ⟨h.order ▸ hwindow.order, h.offset ▸ hwindow.offset, h.limit ▸ hwindow.limit⟩

theorem SameWindow.shows {ask ask' : Ask} (h : SameWindow ask ask') {rows shown : List Row}
    (hshows : Shows ask rows shown) : Shows ask' rows shown := by
  obtain ⟨sorted, offset, limit, hsorted, hoffset, hlimit, hshown⟩ := hshows
  exact ⟨sorted, offset, limit, h.order ▸ hsorted, h.offset ▸ hoffset, h.limit ▸ hlimit, hshown⟩

/-! ## Reading -/

theorem readConditions_of_conditionsIn {options : Options} {name : String}
    {conditions : Fields Json} (h : ConditionsIn (options.get? name) conditions) :
    readConditions options name = .ok conditions := by
  unfold readConditions
  generalize options.get? name = value at h
  cases h with
  | none hsilent => rcases hsilent with rfl | rfl <;> rfl
  | map => rfl

theorem readCount_of_countIn {options : Options} {name : String} {count : Option Nat}
    (h : CountIn (options.get? name) count) : readCount options name = .ok count := by
  unfold readCount
  generalize options.get? name = value at h
  cases h with
  | none hsilent => rcases hsilent with rfl | rfl <;> rfl
  | natural => simp [Json.Number.natural?]

theorem readCount_of_malformed {options : Options} {name : String}
    (h : ¬ ∃ count, CountIn (options.get? name) count) :
    readCount options name = .error (.badCount name) := by
  unfold readCount
  cases hvalue : options.get? name with
  | none => exact absurd ⟨none, hvalue ▸ .none (.inl rfl)⟩ h
  | some value =>
    cases value with
    | null => exact absurd ⟨none, hvalue ▸ .none (.inr rfl)⟩ h
    | number n =>
      cases n with
      | float x => rfl
      | integer n isWord =>
        cases n with
        | ofNat n => exact absurd ⟨some n, hvalue ▸ .natural⟩ h
        | negSucc n => rfl
    | bool b => rfl
    | string s => rfl
    | array items => rfl
    | object fields => rfl

theorem readOrder_of_wellFormed {options : Options}
    (h : Silent (options.get? "order") ∨ ∃ text, options.get? "order" = some (.string text)) :
    ∃ order, readOrder options = .ok order ∧ ∀ rows,
      OrderedBy rows (options.get? "order") (match order with
        | none => rows
        | some order => order.sort rows) := by
  unfold readOrder
  rcases h with hsilent | ⟨text, htext⟩
  · refine ⟨none, ?_, fun rows => .none hsilent⟩
    rcases hsilent with h | h <;> rw [h]
  · refine ⟨some (.ofText text), by rw [htext], fun rows => ?_⟩
    rw [htext]
    exact .field (sorts_sort _ rows)

theorem readOrder_of_malformed {options : Options}
    (h : ¬ (Silent (options.get? "order") ∨ ∃ text, options.get? "order" = some (.string text))) :
    readOrder options = .error .badOrder := by
  unfold readOrder
  cases hvalue : options.get? "order" with
  | none => exact absurd (.inl (.inl hvalue)) h
  | some value =>
    cases value with
    | null => exact absurd (.inl (.inr hvalue)) h
    | string text => exact absurd (.inr ⟨text, hvalue⟩) h
    | _ => rfl

theorem readWindow_of_wellFormed {options : Options} (h : WellFormedWindow options.get?) :
    ∃ window, readWindow options = .ok window ∧
      ∀ rows, Shows options.get? rows (window.apply rows) := by
  obtain ⟨order, horder, hsorted⟩ := readOrder_of_wellFormed h.order
  obtain ⟨offset, hoffset⟩ := h.offset
  obtain ⟨limit, hlimit⟩ := h.limit
  refine ⟨⟨order, offset.getD 0, limit⟩, ?_, fun rows => ?_⟩
  · rw [readWindow, horder, readCount_of_countIn hoffset, readCount_of_countIn hlimit]
    rfl
  · exact ⟨_, offset, limit, hsorted rows, hoffset, hlimit, rfl⟩

theorem readWindow_of_malformed {options : Options} (h : ¬ WellFormedWindow options.get?) :
    ∃ problem, readWindow options = .error problem ∧ problem.kind = .backend := by
  -- The options are read one after another, and the first malformed one is reported.
  by_cases horder : Silent (options.get? "order") ∨ ∃ text, options.get? "order" = some (.string text)
  · obtain ⟨order, hread, _⟩ := readOrder_of_wellFormed horder
    by_cases hoffset : ∃ count, CountIn (options.get? "offset") count
    · obtain ⟨offset, hcount⟩ := hoffset
      have hlimit : ¬ ∃ count, CountIn (options.get? "limit") count :=
        fun hlimit => h ⟨horder, ⟨offset, hcount⟩, hlimit⟩
      refine ⟨.badCount "limit", ?_, rfl⟩
      rw [readWindow, hread, readCount_of_countIn hcount, readCount_of_malformed hlimit]
      rfl
    · refine ⟨.badCount "offset", ?_, rfl⟩
      rw [readWindow, hread, readCount_of_malformed hoffset]
      rfl
  · exact ⟨.badOrder, by rw [readWindow, readOrder_of_malformed horder]; rfl, rfl⟩

/-! ## Searching -/

theorem kept_satisfiesAll (conditions : Fields Json) (rows : List Row) :
    Kept (MeetsAll conditions) rows (rows.filter (satisfiesAll conditions)) :=
  kept_filter (fun _ => satisfiesAll_iff_meetsAll) rows

/-- A search with proper options selects the matching rows in their window. -/
theorem findAll_of_wellFormed (store : Store) (selection : Selection) {options : Options}
    {conditions : Fields Json} (hconditions : ConditionsIn (options.get? "conditions") conditions)
    (hwindow : WellFormedWindow options.get?) :
    ∃ kept shown, Kept (MeetsAll conditions) (selection.rows store) kept ∧
      Shows options.get? kept shown ∧
      findAll store options selection = .ok (.many selection.tableName shown) := by
  obtain ⟨window, hread, hshows⟩ := readWindow_of_wellFormed hwindow
  refine ⟨_, _, kept_satisfiesAll conditions (selection.rows store), hshows _, ?_⟩
  rw [findAll, readConditions_of_conditionsIn hconditions, hread]
  rfl

theorem findAll_of_malformed (store : Store) (selection : Selection) {options : Options}
    {conditions : Fields Json} (hconditions : ConditionsIn (options.get? "conditions") conditions)
    (hwindow : ¬ WellFormedWindow options.get?) :
    ∃ problem, findAll store options selection = .error problem ∧ problem.kind = .backend := by
  obtain ⟨problem, hread, hkind⟩ := readWindow_of_malformed hwindow
  refine ⟨problem, ?_, hkind⟩
  rw [findAll, readConditions_of_conditionsIn hconditions, hread]
  rfl

end NamedQuery.Store
