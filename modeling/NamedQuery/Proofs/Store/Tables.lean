import NamedQuery.Proofs.Fields
import NamedQuery.Proofs.Inflection.Names
import NamedQuery.Proofs.Store.Text
import NamedQuery.Store.Session

/-! # The table of an entity

An entity is served by the last of the tables that have it as their singular, and if there is none, by
the table that is named like it (`Serves`). -/

namespace NamedQuery.Store

open Inflection (pluralize singularize)

/-- The table that serves an entity, if there is one. -/
inductive Serves (store : Store) (entity : String) : Option String → Prop where
  /-- The last table with this singular. -/
  | singular {table : String} : table ∈ store.tables.names → singularize table = entity →
      (∀ other ∈ store.tables.names, singularize other = entity → other ≤ table) →
      Serves store entity (some table)
  /-- The table of this name. -/
  | itself : (∀ table ∈ store.tables.names, singularize table ≠ entity) →
      entity ∈ store.tables.names → Serves store entity (some entity)
  | none : (∀ table ∈ store.tables.names, singularize table ≠ entity) →
      entity ∉ store.tables.names → Serves store entity none

theorem get?_entityTables (store : Store) (entity : String) :
    store.entityTables.get? entity =
      (store.tables.names.filter (singularize · = entity)).getLast? := by
  rw [entityTables, Fields.get?_ofList, List.filter_map, List.getLast?_map, Option.map_map]
  exact Option.map_id'

/-- A table that is the only one with an entity as its singular serves the entity. -/
theorem tableFor?_of_only {store : Store} {entity table : String} (hmem : table ∈ store.tables.names)
    (hsingular : singularize table = entity)
    (honly : ∀ other ∈ store.tables.names, singularize other = entity → other = table) :
    store.tableFor? entity = some table := by
  have hfound : (store.tables.names.filter (singularize · = entity)).getLast? = some table := by
    have htable : table ∈ store.tables.names.filter (singularize · = entity) := by
      simp [hmem, hsingular]
    have hne := List.ne_nil_of_mem htable
    have hlast := List.mem_filter.1 (List.getLast_mem hne)
    rw [List.getLast?_eq_some_getLast hne, honly _ hlast.1 (by simpa using hlast.2)]
  rw [tableFor?, get?_entityTables, hfound]

theorem getLast?_eq_some_iff_greatest {names : List String} (h : names.Pairwise (· < ·))
    {name : String} :
    names.getLast? = some name ↔ name ∈ names ∧ ∀ other ∈ names, other ≤ name := by
  rcases names.eq_nil_or_concat with rfl | ⟨front, last, rfl⟩
  · simp
  · rw [List.concat_eq_append] at h ⊢
    have hfront : ∀ other ∈ front, other < last :=
      fun other hother => (List.pairwise_append.1 h).2.2 other hother last (by simp)
    rw [List.getLast?_concat, Option.some.injEq]
    constructor
    · rintro rfl
      refine ⟨by simp, fun other hother => ?_⟩
      rcases List.mem_append.1 hother with hother | hother
      · exact String.not_lt.1 (String.lt_asymm (hfront other hother))
      · obtain rfl := List.mem_singleton.1 hother
        exact String.le_refl _
    · rintro ⟨hname, hgreatest⟩
      rcases List.mem_append.1 hname with hname | hname
      · exact absurd (hfront name hname) (String.not_lt.2 (hgreatest last (by simp)))
      · exact (List.mem_singleton.1 hname).symm

theorem serves_tableFor? {store : Store} (hsorted : store.tables.Sorted) (entity : String) :
    Serves store entity (store.tableFor? entity) := by
  have hascending : store.tables.names.Pairwise (· < ·) := List.pairwise_map.2 hsorted
  rw [tableFor?]
  cases hget : store.entityTables.get? entity with
  | some table =>
    rw [get?_entityTables, getLast?_eq_some_iff_greatest (hascending.filter _)] at hget
    simp only [List.mem_filter, decide_eq_true_eq] at hget
    obtain ⟨⟨hmem, hsingular⟩, hgreatest⟩ := hget
    exact .singular hmem hsingular fun other hother heq => hgreatest other ⟨hother, heq⟩
  | none =>
    rw [get?_entityTables, List.getLast?_eq_none_iff, List.filter_eq_nil_iff] at hget
    simp only [decide_eq_true_eq] at hget
    -- No table has the entity as its singular, so its own name is what is left.
    by_cases hentity : store.tables.contains entity
    · simp only [hentity, if_true]
      exact .itself hget (Fields.contains_iff_mem_names.1 hentity)
    · simp only [hentity, Bool.false_eq_true, if_false]
      exact .none hget fun hmem => hentity (Fields.contains_iff_mem_names.2 hmem)

theorem Serves.unique {store : Store} {entity : String} {table table' : Option String}
    (h : Serves store entity table) (h' : Serves store entity table') : table = table' := by
  -- Whether some table has this singular settles which way both go.
  cases h with
  | singular hmem hsingular hgreatest =>
    cases h' with
    | singular hmem' hsingular' hgreatest' =>
      rw [String.le_antisymm (hgreatest' _ hmem hsingular) (hgreatest _ hmem' hsingular')]
    | itself hnone _ | none hnone _ => exact absurd hsingular (hnone _ hmem)
  | itself hnone hentity =>
    cases h' with
    | singular hmem' hsingular' _ => exact absurd hsingular' (hnone _ hmem')
    | itself _ _ => rfl
    | none _ hentity' => exact absurd hentity hentity'
  | none hnone hentity =>
    cases h' with
    | singular hmem' hsingular' _ => exact absurd hsingular' (hnone _ hmem')
    | itself _ hentity' => exact absurd hentity' hentity
    | none _ _ => rfl

theorem serves_iff {store : Store} (hsorted : store.tables.Sorted) {entity : String}
    {table : Option String} : Serves store entity table ↔ store.tableFor? entity = table :=
  ⟨(serves_tableFor? hsorted entity).unique, fun h => h ▸ serves_tableFor? hsorted entity⟩

/-- A table of the store serves an entity as the last one with this singular, or as the one of this
name if none has this singular. -/
theorem tableFor?_eq_some_iff {store : Store} (hsorted : store.tables.Sorted) {entity table : String}
    (hmem : table ∈ store.tables.names) :
    store.tableFor? entity = some table ↔
      (singularize table = entity ∧
        ∀ other ∈ store.tables.names, singularize other = entity → other ≤ table) ∨
      (table = entity ∧ ∀ other ∈ store.tables.names, singularize other ≠ entity) := by
  rw [← serves_iff hsorted]
  constructor
  · intro h
    cases h with
    | singular _ hsingular hgreatest => exact .inl ⟨hsingular, hgreatest⟩
    | itself hnone _ => exact .inr ⟨rfl, hnone⟩
  · rintro (⟨hsingular, hgreatest⟩ | ⟨rfl, hnone⟩)
    · exact .singular hmem hsingular hgreatest
    · exact .itself hnone hmem

/-! ## Stores as they come -/

/-- A store that has been built up or read. -/
inductive Made : Store → Prop where
  | empty : Made empty
  | read {text : String} {store : Store} : ofText? text = some store → Made store
  | withTable {store : Store} (name : String) (rows : List Json) :
      Made store → Made (store.withTable name rows)
  | insertRow {store : Store} (table : String) (row : Row) :
      Made store → Made (store.insertRow table row)
  | relate {store : Store} (table name : String) (relation : Relation) :
      Made store → Made (store.relate table name relation)

/-- Whatever is done to a store, the names of its tables ascend. -/
theorem Made.sorted {store : Store} (h : store.Made) : store.tables.Sorted := by
  induction h with
  | empty => exact Fields.sorted_nil
  -- The map that is read is built by insertion, whatever order the entries are in.
  | read h => exact (ordered_of_ofText? h).tables
  | withTable name rows _ ih => exact ih.insert _ _
  | insertRow table row _ ih => exact ih.insert _ _
  | relate table name relation _ ih => exact ih

end NamedQuery.Store
