import NamedQuery.Proofs.Fields
import NamedQuery.Proofs.Store.Conditions
import NamedQuery.Proofs.Store.Distinct

/-! # Hops along relations

`Hop` says where one relation leads from a row or from a set of rows, and `hop` goes there
(`hop_follows`). The rows of a set are each there once, in the order in which they are reached
(`Reached`); this order determines the set (`Reached.unique`), so a hop leads to one place. -/

namespace NamedQuery.Store

def NoNegativeZeros (store : Store) : Prop :=
  ∀ table, ∀ row ∈ store.rows table, ¬ (Json.object row).HoldsNegativeZero

/-- The first row with a property. -/
def First (property : Row → Prop) (rows : List Row) (row : Row) : Prop :=
  ∃ before after, rows = before ++ row :: after ∧ property row ∧ ∀ other ∈ before, ¬ property other

/-! ## Hops -/

/-- The first source that reaches one of two rows reaches `y`, and if it reaches `z` too, then `y`
stands first in the table. -/
def ReachedBefore (store : Store) (relation : Relation) (sources : List Row) (y z : Row) : Prop :=
  ∃ before x after, sources = before ++ x :: after ∧
    (∀ w ∈ before, ¬ Related store relation w y ∧ ¬ Related store relation w z) ∧
    Related store relation x y ∧
    (Related store relation x z → Precedes (store.rows relation.table) y z)

/-- The rows that a relation connects with one of the sources, each once, and in order. -/
structure Reached (store : Store) (relation : Relation) (sources reached : List Row) : Prop where
  mem_iff : ∀ y, y ∈ reached ↔ ∃ x ∈ sources, Related store relation x y
  nodup : reached.Nodup
  ordered : reached.Pairwise (ReachedBefore store relation sources)

/-- Where a relation leads from one row or from a set of rows. -/
inductive Hop (store : Store) (name : String) : Selection → Except Problem Selection → Prop where
  /-- The table reached so far has no relation of this name. -/
  | undeclared {selection : Selection} : store.relation? selection.tableName name = none →
      Hop store name selection (.error (.invalidRelation selection.tableName name))
  /-- One row refers to another one. -/
  | refers {table : String} {x y : Row} {relation : Relation} :
      store.relation? table name = some relation → relation.kind = .belongsTo →
      First (Related store relation x) (store.rows relation.table) y →
      Hop store name (.one table x) (.ok (.one relation.table y))
  /-- One row refers to nothing, or to a row that is not there. -/
  | dangles {table : String} {x : Row} {relation : Relation} :
      store.relation? table name = some relation → relation.kind = .belongsTo →
      (∀ y, ¬ Related store relation x y) →
      Hop store name (.one table x) (.error (.noRelatedRow relation.table name))
  /-- One row has a set of others. -/
  | spreads {table : String} {x : Row} {relation : Relation} {reached : List Row} :
      store.relation? table name = some relation → relation.kind = .hasMany →
      Reached store relation [x] reached →
      Hop store name (.one table x) (.ok (.many relation.table reached))
  /-- A set leads to a set, whatever the kind of the relation. -/
  | moves {table : String} {rows reached : List Row} {relation : Relation} :
      store.relation? table name = some relation → Reached store relation rows reached →
      Hop store name (.many table rows) (.ok (.many relation.table reached))

/-! ## First rows -/

variable {store : Store}

theorem first_of_find? {property : Row → Prop} {test : Row → Bool}
    (htest : ∀ row, test row ↔ property row) {rows : List Row} {row : Row}
    (h : rows.find? test = some row) : First property rows row := by
  obtain ⟨hrow, before, after, hrows, hbefore⟩ := List.find?_eq_some_iff_append.1 h
  refine ⟨before, after, hrows, (htest row).1 hrow, fun other hother hproperty => ?_⟩
  have hfailed := hbefore other hother
  rw [(htest other).2 hproperty] at hfailed
  cases hfailed

/-- Two places in a list are one, or one of them comes before the other. -/
theorem place_cases {α : Type} {before after before' after' : List α} {x x' : α}
    (h : before ++ x :: after = before' ++ x' :: after') :
    x ∈ before' ∨ x' ∈ before ∨ x = x' := by
  rcases List.append_eq_append_iff.1 h with ⟨middle, rfl, htail⟩ | ⟨middle, rfl, htail⟩
  · cases middle with
    | nil => exact .inr (.inr (List.cons.inj htail).1)
    | cons y middle =>
      obtain ⟨rfl, _⟩ := List.cons.inj htail
      exact .inl (List.mem_append_right _ (List.mem_cons_self ..))
  · cases middle with
    | nil => exact .inr (.inr (List.cons.inj htail).1.symm)
    | cons y middle =>
      obtain ⟨rfl, _⟩ := List.cons.inj htail
      exact .inr (.inl (List.mem_append_right _ (List.mem_cons_self ..)))

/-- There is only one first row. -/
theorem First.unique {property : Row → Prop} {rows : List Row} {x y : Row}
    (hx : First property rows x) (hy : First property rows y) : x = y := by
  obtain ⟨before, after, rfl, hx, hbefore⟩ := hx
  obtain ⟨before', after', hrows, hy, hbefore'⟩ := hy
  rcases place_cases hrows with hmem | hmem | heq
  · exact absurd hx (hbefore' x hmem)
  · exact absurd hy (hbefore y hmem)
  · exact heq

theorem First.congr {property property' : Row → Prop} {rows : List Row} {row : Row}
    (h : ∀ other ∈ rows, property other ↔ property' other) :
    First property rows row ↔ First property' rows row := by
  constructor
  · rintro ⟨before, after, rfl, hrow, hbefore⟩
    exact ⟨before, after, rfl, (h row (by simp)).1 hrow,
      fun other hother hproperty => hbefore other hother ((h other (by simp [hother])).2 hproperty)⟩
  · rintro ⟨before, after, rfl, hrow, hbefore⟩
    exact ⟨before, after, rfl, (h row (by simp)).2 hrow,
      fun other hother hproperty => hbefore other hother ((h other (by simp [hother])).1 hproperty)⟩

theorem First.mem {property : Row → Prop} {rows : List Row} {row : Row}
    (h : First property rows row) : row ∈ rows ∧ property row := by
  obtain ⟨before, after, rfl, hrow, -⟩ := h
  exact ⟨by simp, hrow⟩

/-- Of two rows only one can be the first that is reached. -/
theorem ReachedBefore.asymm {relation : Relation} {sources : List Row} {y z : Row}
    (hyz : ReachedBefore store relation sources y z)
    (hzy : ReachedBefore store relation sources z y) : False := by
  obtain ⟨before, x, after, rfl, hbefore, hy, hprecedes⟩ := hyz
  obtain ⟨before', x', after', hsources, hbefore', hz, hprecedes'⟩ := hzy
  rcases place_cases hsources with hmem | hmem | rfl
  · exact (hbefore' x hmem).2 hy
  · exact (hbefore x' hmem).2 hz
  · exact (hprecedes hz).asymm (hprecedes' hy)

/-- There is only one list of the rows that sources reach. -/
theorem Reached.unique {relation : Relation} {sources xs ys : List Row}
    (hxs : Reached store relation sources xs) (hys : Reached store relation sources ys) :
    xs = ys := by
  have hperm : xs.Perm ys :=
    (List.perm_ext_iff_of_nodup hxs.nodup hys.nodup).2 fun y => by rw [hxs.mem_iff, hys.mem_iff]
  exact hperm.eq_of_pairwise (fun y z _ _ hyz hzy => (hyz.asymm hzy).elim) hxs.ordered hys.ordered

/-! ## One hop -/

theorem related_subset_rows {relation : Relation} {x y : Row} (h : y ∈ related store relation x) :
    y ∈ store.rows relation.table :=
  (mem_related_iff.1 h).1

theorem faithful_flatMap_related (hzeros : store.NoNegativeZeros) (relation : Relation)
    (sources : List Row) : Row.Faithful (sources.flatMap (related store relation)) := by
  refine Row.faithful_of_noNegativeZero fun row hrow => ?_
  obtain ⟨x, _, hrelated⟩ := List.mem_flatMap.1 hrow
  exact hzeros _ row (related_subset_rows hrelated)

/-- Among the rows related to one row, the table decides the order. -/
theorem precedes_of_related {relation : Relation} {x y z : Row}
    (hz : Related store relation x z) (h : Precedes (related store relation x) y z) :
    Precedes (store.rows relation.table) y z := by
  obtain ⟨_, key, hkey, hnull, hfound⟩ := hz
  rw [related_of_key hkey hnull] at h
  exact h.of_filter (hasKey_iff.2 hfound)

/-- The order of first places among the rows related to sources. -/
theorem reachedBefore_of_precedes {relation : Relation} {sources : List Row} {y z : Row}
    (hy : y ∈ sources.flatMap (related store relation))
    (h : Precedes (sources.flatMap (related store relation)) y z) :
    ReachedBefore store relation sources y z := by
  induction sources with
  | nil => cases hy
  | cons x rest ih =>
    rw [List.flatMap_cons] at hy h
    by_cases hx : y ∈ related store relation x
    · refine ⟨[], x, rest, rfl, nofun, mem_related_iff.1 hx, fun hz => ?_⟩
      exact precedes_of_related hz (h.of_append_left hx)
    · -- `x` reaches neither of the two, so the sources after it decide.
      obtain ⟨hz, hrest⟩ := h.of_append_right hx
      have hy : y ∈ rest.flatMap (related store relation) := (List.mem_append.1 hy).resolve_left hx
      obtain ⟨before, w, after, rfl, hbefore, hreached, horder⟩ := ih hy hrest
      refine ⟨x :: before, w, after, rfl, ?_, hreached, horder⟩
      refine List.forall_mem_cons.2 ⟨⟨?_, ?_⟩, hbefore⟩
      · exact fun h => hx (mem_related_iff.2 h)
      · exact fun h => hz (mem_related_iff.2 h)

theorem reached_distinct (hzeros : store.NoNegativeZeros) (relation : Relation)
    (sources : List Row) :
    Reached store relation sources (distinct (sources.flatMap (related store relation))) := by
  have hfaithful := faithful_flatMap_related hzeros relation sources
  refine ⟨fun y => ?_, nodup_distinct _, ?_⟩
  · rw [mem_distinct_iff hfaithful, List.mem_flatMap]
    simp only [mem_related_iff]
  · refine (pairwise_distinct hfaithful).imp_of_mem fun {y z} hy _ hprecedes => ?_
    exact reachedBefore_of_precedes ((mem_distinct_iff hfaithful).1 hy) hprecedes

theorem reached_distinct_one (hzeros : store.NoNegativeZeros) (relation : Relation) (x : Row) :
    Reached store relation [x] (distinct (related store relation x)) := by
  have hreached := reached_distinct hzeros relation [x]
  rwa [List.flatMap_cons, List.flatMap_nil, List.append_nil] at hreached

theorem first_related {relation : Relation} {x y : Row} {rest : List Row}
    (h : related store relation x = y :: rest) :
    First (Related store relation x) (store.rows relation.table) y := by
  have hy : Related store relation x y := mem_related_iff.1 (h ▸ List.mem_cons_self ..)
  have ⟨_, key, hkey, hnull, _⟩ := hy
  rw [related_of_key hkey hnull] at h
  obtain ⟨before, after, hrows, hbefore, _, _⟩ := List.filter_eq_cons_iff.1 h
  refine ⟨before, after, hrows, hy, ?_⟩
  rintro other hother ⟨_, key', hkey', _, hfound⟩
  obtain rfl := Option.some.inj (hkey.symm.trans hkey')
  exact hbefore other hother (hasKey_iff.2 hfound)

theorem distinct_cons (row : Row) (rest : List Row) :
    distinct (row :: rest) = row :: distinctAfter [row] rest := rfl

/-- A hop leads where `Hop` says. -/
theorem hop_follows (hzeros : store.NoNegativeZeros) (name : String) {selection : Selection}
    (hselection : ∀ table, selection ≠ .whole table) :
    Hop store name selection (hop store name selection) := by
  unfold hop
  cases hrelation : store.relation? selection.tableName name with
  | none => exact .undeclared hrelation
  | some relation =>
    cases selection with
    | whole table => exact absurd rfl (hselection table)
    | many table rows => exact .moves hrelation (reached_distinct hzeros relation rows)
    | one table row =>
      simp only []
      cases hkind : relation.kind with
      | hasMany => exact .spreads hrelation hkind (reached_distinct_one hzeros relation row)
      | belongsTo =>
        -- Of all rows that are referred to, the first one is taken.
        cases hrelated : related store relation row with
        | nil =>
          refine .dangles hrelation hkind fun y hy => ?_
          have hmem := mem_related_iff.2 hy
          rw [hrelated] at hmem
          cases hmem
        | cons y rest =>
          rw [distinct_cons]
          exact .refers hrelation hkind (first_related hrelated)

theorem Hop.not_whole {name : String} {selection next : Selection}
    (h : Hop store name selection (.ok next)) (table : String) : next ≠ .whole table := by
  cases h <;> nofun

/-- A hop leads to one place. -/
theorem Hop.unique {name : String} {selection : Selection} {first second : Except Problem Selection}
    (h : Hop store name selection first) (h' : Hop store name selection second) :
    first = second := by
  cases h with
  | undeclared hnone =>
    cases h' with
    | undeclared _ => rfl
    | refers hrelation _ _ | dangles hrelation _ _ | spreads hrelation _ _ | moves hrelation _ =>
      exact absurd (hnone.symm.trans hrelation) nofun
  | refers hrelation hkind hfirst =>
    cases h' with
    | undeclared hnone => exact absurd (hnone.symm.trans hrelation) nofun
    | refers hrelation' _ hfirst' =>
      obtain rfl := Option.some.inj (hrelation.symm.trans hrelation')
      rw [hfirst.unique hfirst']
    | dangles hrelation' _ hnone =>
      obtain rfl := Option.some.inj (hrelation.symm.trans hrelation')
      obtain ⟨_, _, _, hrelated, _⟩ := hfirst
      exact absurd hrelated (hnone _)
    | spreads hrelation' hkind' _ =>
      obtain rfl := Option.some.inj (hrelation.symm.trans hrelation')
      exact absurd (hkind.symm.trans hkind') nofun
  | dangles hrelation hkind hnone =>
    cases h' with
    | undeclared hnone => exact absurd (hnone.symm.trans hrelation) nofun
    | refers hrelation' _ hfirst' =>
      obtain rfl := Option.some.inj (hrelation.symm.trans hrelation')
      obtain ⟨_, _, _, hrelated, _⟩ := hfirst'
      exact absurd hrelated (hnone _)
    | dangles hrelation' _ _ =>
      obtain rfl := Option.some.inj (hrelation.symm.trans hrelation')
      rfl
    | spreads hrelation' hkind' _ =>
      obtain rfl := Option.some.inj (hrelation.symm.trans hrelation')
      exact absurd (hkind.symm.trans hkind') nofun
  | spreads hrelation hkind hreached =>
    -- From one row the kind of the relation tells a set from a single row.
    cases h' with
    | undeclared hnone => exact absurd (hnone.symm.trans hrelation) nofun
    | refers hrelation' hkind' _ | dangles hrelation' hkind' _ =>
      obtain rfl := Option.some.inj (hrelation.symm.trans hrelation')
      exact absurd (hkind.symm.trans hkind') nofun
    | spreads hrelation' _ hreached' =>
      obtain rfl := Option.some.inj (hrelation.symm.trans hrelation')
      rw [hreached.unique hreached']
  | moves hrelation hreached =>
    cases h' with
    | undeclared hnone => exact absurd (hnone.symm.trans hrelation) nofun
    | moves hrelation' hreached' =>
      obtain rfl := Option.some.inj (hrelation.symm.trans hrelation')
      rw [hreached.unique hreached']

/-! ## Stores without negative zeros -/

theorem noNegativeZeros_of_tables
    (h : ∀ entry ∈ store.tables, ∀ row ∈ entry.2, ¬ (Json.object row).HoldsNegativeZero) :
    store.NoNegativeZeros := by
  intro table row hrow
  unfold rows at hrow
  cases hget : store.tables.get? table with
  | none =>
    rw [hget] at hrow
    cases hrow
  | some rows =>
    rw [hget] at hrow
    exact h (table, rows) (Fields.mem_of_get? hget) row hrow

theorem noNegativeZeros_blog : blog.NoNegativeZeros := by
  apply noNegativeZeros_of_tables
  simp [blog, Json.holdsNegativeZero_object_cons, Json.not_holdsNegativeZero_object_nil,
    Json.not_holdsNegativeZero_integer, Json.not_holdsNegativeZero_string]

end NamedQuery.Store
