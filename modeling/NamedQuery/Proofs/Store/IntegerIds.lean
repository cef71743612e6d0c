import NamedQuery.Proofs.Numeric.Integers
import NamedQuery.Proofs.Store.Steps
import NamedQuery.Proofs.Store.Text
import NamedQuery.Proofs.Store.Walk

/-! # Integers as ids

Two integers are loosely equal if they have the same nearest floating-point number, also when they are
two different ones. So the row of an `id` is the first one whose `id` has the nearest number of what was
asked for (`GetsNearest`), and a relation leads to rows whose key has that of the `id` (`ReachesNearest`).
This is as good as looking for the integer itself (`GetsExactly`, `ReachesExactly`) for the integers that
are alone with their nearest number, and for no other ones. -/

namespace NamedQuery.Store

open Numeric (Alone keyOfInt)

/-! ## Integers in fields -/

def Holds (row : Row) (field : String) (n : Int) : Prop :=
  ∃ hn, row.get? field = some (.number (.integer n hn))

/-- A field holds an integer that has the nearest number of `n`. -/
def HoldsNearest (row : Row) (field : String) (n : Int) : Prop :=
  ∃ m, Holds row field m ∧ keyOfInt m = keyOfInt n

theorem looselyEqual_integer_iff {m n : Int} (hm : Json.IsWord m) (hn : Json.IsWord n) :
    looselyEqual (.number (.integer m hm)) (.number (.integer n hn)) ↔ keyOfInt m = keyOfInt n := by
  show ((m == n) || (keyOfInt m == keyOfInt n)) = true ↔ _
  rw [Bool.or_eq_true, beq_iff_eq, beq_iff_eq]
  exact ⟨fun h => h.elim (congrArg keyOfInt) id, .inr⟩

/-- A field holds one integer. -/
theorem Holds.unique {row : Row} {field : String} {m n : Int} (hm : Holds row field m)
    (hn : Holds row field n) : m = n := by
  obtain ⟨_, hm⟩ := hm
  obtain ⟨_, hn⟩ := hn
  cases hm.symm.trans hn
  rfl

theorem HoldsNearest.holds {row : Row} {field : String} {n : Int} (h : HoldsNearest row field n)
    (halone : Alone n) : Holds row field n := by
  obtain ⟨m, hholds, hkey⟩ := h
  exact halone.eq_of_keyOfInt_eq hkey ▸ hholds

theorem Holds.holdsNearest {row : Row} {field : String} {n : Int} (h : Holds row field n) :
    HoldsNearest row field n :=
  ⟨n, h, rfl⟩

/-- All rows have an integer as their `id`, and no two rows the same one. -/
structure IntegerIds (rows : List Row) : Prop where
  integers : ∀ row ∈ rows, ∃ n, Holds row "id" n
  distinct : rows.Pairwise fun x y => ∀ n, Holds x "id" n → ¬ Holds y "id" n

/-! ## Getting rows -/

/-- What a fresh session of a table answers to a call for one row. -/
def answerToGet (store : Store) (table : String) (options : Options) :
    Except Adapter.Failure Answer :=
  (store.session table).answer [] (.act ⟨.get, options⟩)

/-- The answer is the row whose `id` is the integer, and no such row is found exactly if there is
none. -/
def GetsExactly (store : Store) (table : String) (n : Int) : Prop :=
  ∀ options : Options, Holds options "id" n →
    (∀ row, store.answerToGet table options = .ok (.one row) ↔
      row ∈ store.rows table ∧ Holds row "id" n) ∧
    ((∃ failure, store.answerToGet table options = .error failure ∧ failure.kind = .notFound) ↔
      ∀ row ∈ store.rows table, ¬ Holds row "id" n)

/-- The answer is the first row whose `id` has the nearest number of the integer, and no such row is
found exactly if there is none. -/
def GetsNearest (store : Store) (table : String) (n : Int) : Prop :=
  ∀ options : Options, Holds options "id" n →
    (∀ row, store.answerToGet table options = .ok (.one row) ↔
      First (HoldsNearest · "id" n) (store.rows table) row) ∧
    ((∃ failure, store.answerToGet table options = .error failure ∧ failure.kind = .notFound) ↔
      ∀ row ∈ store.rows table, ¬ HoldsNearest row "id" n)

variable {store : Store} {table : String} {n : Int} {options : Options}

theorem answerToGet_eq (store : Store) (table : String) (options : Options) :
    store.answerToGet table options =
      ((get store options (.whole table)).map (Selection.answer store)).mapError
        Problem.failure := by
  have hanswer : store.answerToGet table options =
      answerOn store (.whole table) (.act ⟨.get, options⟩) := rfl
  rw [hanswer, answerOn, perform, Move.answer_step]

/-- Among rows with integers, those of an `id` are the ones that have its nearest number. -/
theorem identifiedBy_iff {row : Row} (hrow : ∃ m, Holds row "id" m) (hn : Json.IsWord n) :
    IdentifiedBy (.number (.integer n hn)) row ↔ HoldsNearest row "id" n := by
  constructor
  · rintro ⟨found, hfound, hequal⟩
    obtain ⟨m, hm, hget⟩ := hrow
    obtain rfl := Option.some.inj (hfound.symm.trans hget)
    exact ⟨m, ⟨hm, hget⟩, (looselyEqual_integer_iff hm hn).1 hequal⟩
  · rintro ⟨m, ⟨hm, hget⟩, hkey⟩
    exact ⟨_, hget, (looselyEqual_integer_iff hm hn).2 hkey⟩

theorem getsNearest (h : IntegerIds (store.rows table)) (n : Int) : store.GetsNearest table n := by
  rintro options ⟨hn, hid⟩
  -- Among integers, loose equality compares no more than their nearest floating-point numbers.
  have hidentified (row : Row) (hrow : row ∈ store.rows table) :=
    identifiedBy_iff (h.integers row hrow) hn
  rw [answerToGet_eq]
  by_cases hany : ∃ row ∈ store.rows table, HoldsNearest row "id" n
  · obtain ⟨row, hrow, hnearest⟩ := hany
    obtain ⟨anchor, hfirst, hget⟩ := get_of_anchor hid hrow ((hidentified row hrow).2 hnearest)
    rw [First.congr hidentified] at hfirst
    rw [hget]
    refine ⟨fun other => ⟨fun hanswer => ?_, fun hother => ?_⟩, ⟨?_, fun hnone => ?_⟩⟩
    · cases hanswer
      exact hfirst
    · rw [hother.unique hfirst]
      rfl
    · rintro ⟨_, hanswer, -⟩
      cases hanswer
    · exact absurd hnearest (hnone row hrow)
  · have hnone : ∀ row ∈ store.rows table, ¬ HoldsNearest row "id" n :=
      fun row hrow hnearest => hany ⟨row, hrow, hnearest⟩
    rw [get_of_noAnchor hid fun row hrow hid => hnone row hrow ((hidentified row hrow).1 hid)]
    refine ⟨fun other => ⟨nofun, fun hother => ?_⟩, fun _ => hnone, fun _ => ⟨_, rfl, rfl⟩⟩
    exact absurd hother.mem.2 (hnone other hother.mem.1)

/-- For an integer that is alone, the first row with its nearest number is the row with the integer. -/
theorem getsExactly_of_alone (h : IntegerIds (store.rows table)) (halone : Alone n) :
    store.GetsExactly table n := by
  intro options hid
  obtain ⟨hfound, hmissing⟩ := getsNearest h n options hid
  refine ⟨fun row => (hfound row).trans ⟨fun hfirst => ?_, fun ⟨hrow, hholds⟩ => ?_⟩,
    hmissing.trans ⟨fun hnone row hrow hholds => ?_, fun hnone row hrow hnearest => ?_⟩⟩
  · exact ⟨hfirst.mem.1, hfirst.mem.2.holds halone⟩
  · -- No earlier row has the same nearest number, since it would hold the integer itself.
    obtain ⟨before, after, hrows⟩ := List.append_of_mem hrow
    refine ⟨before, after, hrows, hholds.holdsNearest, fun other hother hnearest => ?_⟩
    have hdistinct := h.distinct
    rw [hrows, List.pairwise_append] at hdistinct
    exact hdistinct.2.2 other hother row (List.mem_cons_self ..) n (hnearest.holds halone) hholds
  · exact hnone row hrow hholds.holdsNearest
  · exact hnone row hrow (hnearest.holds halone)

/-! ## Following relations -/

/-- The rows that a row with the integer as its `id` has many of hold no other integer as their key. -/
def ReachesExactly (store : Store) (table : String) (n : Int) : Prop :=
  ∀ name relation, store.relation? table name = some relation → relation.kind = .hasMany →
    ∀ x ∈ store.rows table, Holds x "id" n →
      ∀ y ∈ related store relation x, ∀ m, Holds y relation.foreignKey m → m = n

/-- Of the rows that hold an integer as their key, a row with the integer as its `id` has those whose key
has the nearest number of this integer. -/
def ReachesNearest (store : Store) (table : String) (n : Int) : Prop :=
  ∀ name relation, store.relation? table name = some relation → relation.kind = .hasMany →
    ∀ x ∈ store.rows table, Holds x "id" n → ∀ y m, Holds y relation.foreignKey m →
      (y ∈ related store relation x ↔
        y ∈ store.rows relation.table ∧ keyOfInt m = keyOfInt n)

theorem reachesNearest (store : Store) (table : String) (n : Int) : store.ReachesNearest table n := by
  rintro name ⟨other, foreignKey, kind⟩ - rfl x - ⟨hn, hx⟩ y m ⟨hm, hy⟩
  rw [mem_related_iff]
  constructor
  · rintro ⟨hmem, key, hkey, -, found, hfound, hequal⟩
    obtain rfl := Option.some.inj (hkey.symm.trans hx)
    obtain rfl := Option.some.inj (hfound.symm.trans hy)
    exact ⟨hmem, (looselyEqual_integer_iff hm hn).1 hequal⟩
  · rintro ⟨hmem, hkey⟩
    exact ⟨hmem, _, hx, nofun, _, hy, (looselyEqual_integer_iff hm hn).2 hkey⟩

theorem reachesExactly_of_alone (store : Store) (table : String) (halone : Alone n) :
    store.ReachesExactly table n := by
  intro name relation hrelation hkind x hx hholds y hy m hm
  exact halone.eq_of_keyOfInt_eq ((reachesNearest store table n name relation hrelation hkind x hx
    hholds y m hm).1 hy).2

/-! ## Twins -/

/-- Two users with integers as their ids, and a post of the first one. -/
def twins (m n : Json.Number) : Store :=
  ((empty.withTable "users" [.object [("id", .number m)], .object [("id", .number n)]]).withTable
    "posts" [.object [("user_id", .number m)]]).relate "users" "posts" ⟨"posts", "user_id", .hasMany⟩

theorem canonical_singleton (field : String) (n : Json.Number) :
    (Json.object [(field, .number n)]).Canonical :=
  Json.canonical_object_of_leaves (List.pairwise_singleton ..)
    (List.forall_mem_singleton.2 ⟨rfl, rfl⟩)

theorem ordered_twins (m n : Json.Number) : (twins m n).Ordered := by
  refine .relate (.withTable (.withTable .empty "users" ?_) "posts" ?_) _ _ _
  · exact List.forall_mem_cons.2
      ⟨canonical_singleton "id" m, List.forall_mem_singleton.2 (canonical_singleton "id" n)⟩
  · exact List.forall_mem_singleton.2 (canonical_singleton "user_id" m)

section

variable {m : Int} (hm : Json.IsWord m) (hn : Json.IsWord n)

theorem integerIds_twins (hne : m ≠ n) :
    IntegerIds ((twins (.integer m hm) (.integer n hn)).rows "users") where
  integers := List.forall_mem_cons.2 ⟨⟨m, hm, rfl⟩, List.forall_mem_singleton.2 ⟨n, hn, rfl⟩⟩
  distinct := by
    refine List.pairwise_pair.2 fun k hmk hnk => hne ?_
    exact (Holds.unique ⟨hm, rfl⟩ hmk).trans (Holds.unique hnk ⟨hn, rfl⟩)

/-- Asked for the second of two twins, the store finds the first one. -/
theorem not_getsExactly_twins (hne : m ≠ n) (hkey : keyOfInt m = keyOfInt n) :
    ¬ (twins (.integer m hm) (.integer n hn)).GetsExactly "users" n := by
  intro hexact
  have hid : Holds [("id", .number (.integer n hn))] "id" n := ⟨hn, rfl⟩
  have hfirst : First (HoldsNearest · "id" n)
      ((twins (.integer m hm) (.integer n hn)).rows "users") [("id", .number (.integer m hm))] :=
    ⟨[], _, rfl, ⟨m, ⟨hm, rfl⟩, hkey⟩, nofun⟩
  have hanswer := ((getsNearest (integerIds_twins hm hn hne) n _ hid).1 _).2 hfirst
  exact hne (Holds.unique ⟨hm, rfl⟩ (((hexact _ hid).1 _).1 hanswer).2)

/-- The post of the first of two twins is also one of the second. -/
theorem not_reachesExactly_twins (hne : m ≠ n) (hkey : keyOfInt m = keyOfInt n) :
    ¬ (twins (.integer m hm) (.integer n hn)).ReachesExactly "users" n := by
  intro hexact
  have hx : [("id", Json.number (.integer n hn))] ∈
      (twins (.integer m hm) (.integer n hn)).rows "users" := .tail _ (.head _)
  have hy : [("user_id", Json.number (.integer m hm))] ∈
      related (twins (.integer m hm) (.integer n hn)) ⟨"posts", "user_id", .hasMany⟩
        [("id", Json.number (.integer n hn))] :=
    (reachesNearest _ "users" n "posts" _ rfl rfl _ hx ⟨hn, rfl⟩ _ m ⟨hm, rfl⟩).2 ⟨.head _, hkey⟩
  exact hne (hexact "posts" _ rfl rfl _ hx ⟨hn, rfl⟩ _ hy m ⟨hm, rfl⟩)

end

/-! ## Main statement -/

/-- In a table whose rows have different integers as their ids, rows are got, and relations followed, by
the nearest number of an integer. For an integer that is alone with its nearest number this is the integer
itself. For any other there are stores in which another user is found, and posts of another user are
reached. -/
theorem integer_ids_as_nearest (hn : Json.IsWord n) :
    (∀ (store : Store) table, IntegerIds (store.rows table) →
      store.GetsNearest table n ∧ store.ReachesNearest table n) ∧
    (Alone n → ∀ (store : Store) table, IntegerIds (store.rows table) →
      store.GetsExactly table n ∧ store.ReachesExactly table n) ∧
    (¬ Alone n → ∃ (store : Store) (table : String), store.Ordered ∧ IntegerIds (store.rows table) ∧
      ¬ store.GetsExactly table n ∧ ¬ store.ReachesExactly table n) := by
  refine ⟨fun store table hids => ⟨getsNearest hids n, reachesNearest store table n⟩,
    fun halone store table hids =>
      ⟨getsExactly_of_alone hids halone, reachesExactly_of_alone store table halone⟩,
    fun hconfused => ?_⟩
  obtain ⟨m, hm, hkey, hne⟩ := Numeric.exists_word_of_not_alone hn hconfused
  exact ⟨twins (.integer m hm) (.integer n hn), "users", ordered_twins _ _,
    integerIds_twins hm hn hne, not_getsExactly_twins hm hn hne hkey,
    not_reachesExactly_twins hm hn hne hkey⟩

/-- The integer after `2 ^ 53` is not alone. -/
theorem ids_beyond_precision : Json.IsWord 9007199254740993 ∧
    ∃ (store : Store) (table : String), store.Ordered ∧ IntegerIds (store.rows table) ∧
      ¬ store.GetsExactly table 9007199254740993 ∧ ¬ store.ReachesExactly table 9007199254740993 := by
  have hword : Json.IsWord 9007199254740993 := by decide
  have hconfused : ¬ Alone 9007199254740993 := by
    unfold Alone
    decide
  exact ⟨hword, (integer_ids_as_nearest hword).2.2 hconfused⟩

/-- A user is got instead of the next one. -/
example : (twins (.integer 9007199254740992) (.integer 9007199254740993)).answerToGet "users"
      [("id", .number (.integer 9007199254740993))] =
    .ok (.one [("id", .number (.integer 9007199254740992))]) := by
  rfl

end NamedQuery.Store
