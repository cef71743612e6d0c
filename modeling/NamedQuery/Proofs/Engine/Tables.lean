import NamedQuery.Proofs.Engine.Caches
import NamedQuery.Proofs.Store.Tables
import NamedQuery.Proofs.Text.ByteOrder

/-! # The tables that plans stand on

A plan stands on the table that its adapter has for one entity, which the intent names
(`table_of_ofIntent`). A store has a table for an entity just if one of its own tables is named like the
entity, in the plural or as it is, and answers no other name; so the plans of a store all stand on
tables of it (`plans_stand_on_tables`). -/

namespace NamedQuery

open Inflection (singularize underscore)

/-! ## Plans and entities -/

namespace Plan

/-- The entity whose table the plan of an intent stands on. A walk starts at its key. -/
def entityOf? (intent : Intent) : Option String :=
  match intent.verb with
  | .fromAnchor => intent.key.map singularize
  | .byField | .all | .joinedWith => some (underscore (singularize intent.entity))

theorem tableFor_eq_ok_iff {adapter : Adapter} {entity table : String} :
    tableFor adapter entity = .ok table ↔ adapter.tableFor? entity = .ok (some table) := by
  unfold tableFor
  rcases adapter.tableFor? entity with failure | _ | found
  · exact iff_of_false nofun nofun
  · exact iff_of_false nofun nofun
  · simp

/-- A plan stands on the table that the adapter has for the entity of the intent. -/
theorem table_of_ofIntent {intent : Intent} {adapter : Adapter} {plan : Plan}
    (h : ofIntent intent adapter = .ok plan) :
    ∃ entity, entityOf? intent = some entity ∧ adapter.tableFor? entity = .ok (some plan.table) := by
  unfold entityOf?
  -- Whatever the verb, the plan is made with the table that the adapter names, or not at all.
  cases hverb : intent.verb with
  | byField | all =>
    have hlookup : lookup intent adapter = .ok plan := by rw [← h, ofIntent, hverb]
    obtain ⟨table, htable, hplan⟩ := bind_eq_ok_iff.1 hlookup
    cases hplan
    exact ⟨_, rfl, tableFor_eq_ok_iff.1 htable⟩
  | fromAnchor =>
    have hwalk : walk intent adapter = .ok plan := by rw [← h, ofIntent, hverb]
    unfold walk at hwalk
    cases hkey : intent.key with
    | none =>
      rw [hkey] at hwalk
      cases hwalk
    | some key =>
      rw [hkey] at hwalk
      obtain ⟨_, hgiven, hwalk⟩ := bind_eq_ok_iff.1 hwalk
      obtain ⟨table, htable, hplan⟩ := bind_eq_ok_iff.1 hwalk
      cases hgiven
      cases hplan
      exact ⟨_, rfl, tableFor_eq_ok_iff.1 htable⟩
  | joinedWith =>
    have hjoin : join intent adapter = .ok plan := by rw [← h, ofIntent, hverb]
    unfold join at hjoin
    cases hkey : intent.key with
    | none =>
      rw [hkey] at hjoin
      cases hjoin
    | some key =>
      rw [hkey] at hjoin
      obtain ⟨_, _, hjoin⟩ := bind_eq_ok_iff.1 hjoin
      obtain ⟨table, htable, hplan⟩ := bind_eq_ok_iff.1 hjoin
      cases hplan
      exact ⟨_, rfl, tableFor_eq_ok_iff.1 htable⟩

end Plan

/-- What an engine compiles after a history that leaves the adapters alone is what it would compile at
once. -/
theorem Engine.compile_after {settings : Settings} {history : List Operation}
    (hkeep : ∀ operation ∈ history, operation.KeepsAdapters) (identifier : String) :
    (((ofSettings settings).after history).compile identifier).1 = plan? settings identifier := by
  have hafter : ((ofSettings settings).after history).UpToDate :=
    after_induction (upToDate_ofSettings settings) fun engine operation hoperation h =>
      h.perform operation (hkeep operation hoperation)
  have hsame : ((ofSettings settings).after history).settings.adapter = settings.adapter := by
    rw [settings_after settings hkeep]
    rfl
  rw [hafter.compile_result, plan?_congr hsame]

/-! ## Tables of a store -/

namespace Store

variable {store : Store} {entity : String}

theorem Serves.mem_names {table : String} (h : store.Serves entity (some table)) :
    table ∈ store.tables.names := by
  cases h with
  | singular hmem _ _ => exact hmem
  | itself _ hmem => exact hmem

theorem Serves.isSome_iff {served : Option String} (h : store.Serves entity served) :
    served.isSome ↔ ∃ table ∈ store.tables.names, singularize table = entity ∨ table = entity := by
  cases h with
  | singular hmem hsingular _ => exact iff_of_true rfl ⟨_, hmem, .inl hsingular⟩
  | itself _ hmem => exact iff_of_true rfl ⟨_, hmem, .inr rfl⟩
  | none hnone hentity =>
    refine iff_of_false Bool.false_ne_true ?_
    rintro ⟨table, hmem, hsingular | rfl⟩
    · exact hnone table hmem hsingular
    · exact hentity hmem

theorem mem_names_of_ofIntent (hsorted : store.tables.Sorted) {intent : Intent} {plan : Plan}
    (hplan : Plan.ofIntent intent store.adapter = .ok plan) : plan.table ∈ store.tables.names := by
  obtain ⟨entity, _, htable⟩ := Plan.table_of_ofIntent hplan
  have hfound : store.tableFor? entity = some plan.table := Except.ok.inj htable
  exact ((serves_iff hsorted).2 hfound).mem_names

/-- Whatever an engine has done with a store, what it compiles stands on a table of the store. -/
theorem mem_names_of_compile (hsorted : store.tables.Sorted) {settings : Settings}
    (hadapter : settings.adapter = .ok store.adapter) {history : List Operation}
    (hkeep : ∀ operation ∈ history, operation.KeepsAdapters) {identifier : String} {plan : Plan}
    (hplan : (((Engine.ofSettings settings).after history).compile identifier).1 = .ok (some plan)) :
    plan.table ∈ store.tables.names := by
  rw [Engine.compile_after hkeep] at hplan
  obtain ⟨intent, adapter, _, hinUse, hintent⟩ := Engine.intent_of_plan? hplan
  cases hadapter.symm.trans hinUse
  exact mem_names_of_ofIntent hsorted hintent

/-! ## Main statement -/

/-- A store answers for every entity. It has a table for it just if a table of its own has the entity as
its singular or as its name; it is the last one in the order of bytes of those with this singular, and
the one of this name only if there are none. So every plan that is made against the store stands on a
table of it, under any verb, and every identifier that an engine on the store compiles. -/
theorem plans_stand_on_tables (hmade : store.Made) :
    let names := store.tables.names
    (∀ entity, ∃ served, store.adapter.tableFor? entity = .ok served ∧
      (served.isSome ↔ ∃ table ∈ names, singularize table = entity ∨ table = entity) ∧
      ∀ table, served = some table ↔ table ∈ names ∧
        (singularize table = entity ∧
            (∀ other ∈ names, singularize other = entity → Text.bytes other ≤ Text.bytes table) ∨
          table = entity ∧ ∀ other ∈ names, singularize other ≠ entity)) ∧
    (∀ intent plan, Plan.ofIntent intent store.adapter = .ok plan →
      plan.table ∈ names ∧ ∃ entity, Plan.entityOf? intent = some entity ∧
        store.adapter.tableFor? entity = .ok (some plan.table)) ∧
    ∀ settings : Settings, settings.adapter = .ok store.adapter →
      ∀ history : List Operation, (∀ operation ∈ history, operation.KeepsAdapters) →
        ∀ identifier plan,
          (((Engine.ofSettings settings).after history).compile identifier).1 = .ok (some plan) →
          plan.table ∈ names := by
  intro names
  have hsorted := hmade.sorted
  refine ⟨fun entity => ⟨store.tableFor? entity, rfl, ?_, fun table => ?_⟩, ?_, ?_⟩
  · exact (serves_tableFor? hsorted entity).isSome_iff
  · simp only [Text.bytes_le_iff]
    constructor
    · intro hfound
      have hmem := ((serves_iff hsorted).2 hfound).mem_names
      exact ⟨hmem, (tableFor?_eq_some_iff hsorted hmem).1 hfound⟩
    · rintro ⟨hmem, hfound⟩
      exact (tableFor?_eq_some_iff hsorted hmem).2 hfound
  · intro intent plan hplan
    exact ⟨mem_names_of_ofIntent hsorted hplan, Plan.table_of_ofIntent hplan⟩
  · intro settings hadapter history hkeep identifier plan hplan
    exact mem_names_of_compile hsorted hadapter hkeep hplan

/-- Two tables of one entity, and one that has the singular of no table. -/
def archive : Store :=
  ((empty.withTable "matrixes" []).withTable "data" []).withTable "matrices" []

/-- The later one of the two tables is found, the third one also by its own name, and the plan of a
query that is compiled after another one stands on what was found. -/
theorem archive_plans_stand :
    archive.adapter.tableFor? "matrix" = .ok (some "matrixes") ∧
      archive.adapter.tableFor? "data" = .ok (some "data") ∧
      archive.adapter.tableFor? "row" = .ok none ∧
      ∃ plan : Plan, (((Engine.ofSettings (.on archive)).after [.compile "AllMatrices"]).compile
        "DataFromMatrix").1 = .ok (some plan) ∧ plan.table ∈ archive.tables.names := by
  have hmade : archive.Made := .withTable _ _ (.withTable _ _ (.withTable _ _ .empty))
  have hnames : archive.tables.names = ["data", "matrices", "matrixes"] := by rfl
  obtain ⟨hserved, _, hcompiled⟩ := plans_stand_on_tables hmade
  refine ⟨?_, ?_, ?_, ?_⟩
  · obtain ⟨served, hserved, _, hfound⟩ := hserved "matrix"
    rw [hserved, (hfound "matrixes").2 ?_]
    rw [hnames]
    decide
  · obtain ⟨served, hserved, _, hfound⟩ := hserved "data"
    rw [hserved, (hfound "data").2 ?_]
    rw [hnames]
    decide
  · obtain ⟨served, hserved, hsome, _⟩ := hserved "row"
    rw [hnames] at hsome
    cases served with
    | none => exact hserved
    | some table => exact absurd (hsome.1 rfl) (by decide)
  · have hkeep : ∀ operation ∈ [Operation.compile "AllMatrices"], operation.KeepsAdapters := by
      simp [Operation.KeepsAdapters]
    have hplan : (((Engine.ofSettings (.on archive)).after [.compile "AllMatrices"]).compile
        "DataFromMatrix").1 = .ok (some ⟨"DataFromMatrix", .fromAnchor, .walk "matrix" "data", true,
          "data", "matrixes"⟩) := by
      rw [Engine.compile_after hkeep]
      rfl
    refine ⟨⟨"DataFromMatrix", .fromAnchor, .walk "matrix" "data", true, "data", "matrixes"⟩, hplan, ?_⟩
    exact hcompiled (.on archive) rfl [.compile "AllMatrices"] hkeep "DataFromMatrix" _ hplan

end Store

end NamedQuery
