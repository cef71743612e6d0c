import NamedQuery.Proofs.Engine.History
import NamedQuery.Proofs.Engine.Lookup
import NamedQuery.Proofs.Store.Walk

/-! # Lookups by primary key

A lookup of one record by `id` goes straight to the record if it has no options, and is a search as
soon as it has one, be it the limit of one record that it has anyway. Going straight there compares
the `id` with the value, and searching takes the value as a condition: a list is met by its members,
and null by what is missing. So the two find the same record for every other value
(`primaryKey_delivers`), but not for a list (`userById_delivers_apart`) or null. -/

namespace NamedQuery

open Store (Meets Kept IdentifiedBy)

/-- Two results are one, or both say that there is no record. -/
inductive SameRecord : Except Fault (Option Output) → Except Fault (Option Output) → Prop where
  | found {output : Option Output} : SameRecord (.ok output) (.ok output)
  | none {fault fault' : Fault} : fault.kind = .recordNotFound → fault'.kind = .recordNotFound →
      SameRecord (.error fault) (.error fault')

namespace Delivers

variable {plan : Plan} {type : EntityType} {row : Row} {rows : List Row}
  {result other : Except Fault (Option Output)}

theorem of_nil (h : Delivers plan type [] result) (hone : plan.isCollection = false) :
    ∃ fault, result = .error fault ∧ fault.kind = .recordNotFound := by
  cases h with
  | collection hmany => exact absurd (hmany.symm.trans hone) nofun
  | nothing _ hkind => exact ⟨_, rfl, hkind⟩

theorem of_cons (h : Delivers plan type (row :: rows) result) (hone : plan.isCollection = false) :
    result = .ok (some (.single (type.entity row))) := by
  cases h with
  | collection hmany => exact absurd (hmany.symm.trans hone) nofun
  | single _ => rfl

theorem sameRecord (h : Delivers plan type rows result) (h' : Delivers plan type rows other)
    (hone : plan.isCollection = false) : SameRecord result other := by
  cases rows with
  | nil =>
    obtain ⟨fault, rfl, hkind⟩ := h.of_nil hone
    obtain ⟨fault', rfl, hkind'⟩ := h'.of_nil hone
    exact .none hkind hkind'
  | cons row rest =>
    rw [h.of_cons hone, h'.of_cons hone]
    exact .found

/-- Only the first row matters to a plan of one. -/
theorem of_take (h : Delivers plan type (rows.take 1) result) (hone : plan.isCollection = false) :
    Delivers plan type rows result := by
  cases rows with
  | nil => exact h
  | cons row rest =>
    rw [h.of_cons hone]
    exact .single hone

end Delivers

namespace Store

/-- A value that is neither null nor a list is met by the rows that have it as their `id`. -/
theorem meets_id_iff {value : Json} (hnull : value ≠ .null) (hlist : ∀ items, value ≠ .array items)
    (row : Row) : Meets (row.get? "id") value ↔ IdentifiedBy value row := by
  constructor
  · intro h
    cases h with
    | missing _ => exact absurd rfl hnull
    | member _ _ => exact absurd rfl (hlist _)
    | value _ _ hfound hequal => exact ⟨_, hfound, hequal⟩
  · rintro ⟨found, hfound, hequal⟩
    exact .value hnull hlist hfound hequal

end Store

namespace Engine

variable {engine : Engine} {store : Store} {identifier : String} {plan : Plan}

/-- A request that comes to one action is answered by the store. -/
theorem runStrict_reported (hadapter : engine.settings.adapter = .ok store.adapter)
    (hplan : (engine.compile identifier).1 = .ok (some plan)) {request : Request} {action : Action}
    (hactions : plan.actions request = .ok [action]) :
    (engine.runStrict identifier request).result =
      reported plan ((engine.compile identifier).2.typeOf plan).1
        ((store.perform action (.whole plan.table)).answer store) := by
  have hcompiled : (engine.compile identifier).2.settings.adapter = .ok store.adapter := by
    rw [compile_settings, hadapter]
  rw [runStrict_of_compile hplan, execute_result hcompiled, Plan.run_result_of_oneAction hactions]
  rfl

/-- Going straight to a record delivers the rows with the `id`. -/
theorem delivers_get (store : Store) (type : EntityType) (hone : plan.isCollection = false)
    (value : Json) :
    ∃ kept, Kept (IdentifiedBy value) (store.rows plan.table) kept ∧
      Delivers plan type kept (reported plan type
        ((store.perform ⟨.get, [(Plan.primaryKey, value)]⟩ (.whole plan.table)).answer store)) := by
  refine ⟨_, Store.kept_filter (fun _ => Store.hasKey_iff) _, ?_⟩
  have hcall : (store.perform ⟨.get, [(Plan.primaryKey, value)]⟩ (.whole plan.table)).answer store =
      (store.get [(Plan.primaryKey, value)] (.whole plan.table)).map
        (Store.Selection.answer store) := Store.Move.answer_step store _ _
  have hid : Fields.get? [(Plan.primaryKey, value)] "id" = some value := rfl
  -- The first row with this key is the first of the kept ones.
  rw [hcall]
  unfold Store.get
  simp only [hid, Store.Selection.rows, ← List.head?_filter]
  cases (store.rows plan.table).filter (Store.hasKey · "id" value) with
  | nil =>
    refine .nothing hone ?_
    rw [Store.fault_of_notFound rfl]
    rfl
  | cons row rest =>
    show Delivers plan type (row :: rest) (reported plan type (.ok (.one row)))
    rw [reported_one type hone]
    exact .single hone

theorem isWord_one : Json.IsWord 1 := by decide

/-- The options of a caller who asks for one record at most. -/
def limitOne : Options := [("limit", .number (.integer 1 isWord_one))]

theorem looksFor_limitOne_iff {value : Json} {row : Row} :
    LooksFor [(Plan.primaryKey, value)] limitOne row ↔ Meets (row.get? "id") value := by
  constructor
  · rintro ⟨hown, _⟩
    exact hown _ (List.mem_singleton_self _)
  · intro h
    refine ⟨fun entry hentry => ?_, fun _ hconditions => nomatch hconditions⟩
    rw [List.mem_singleton.1 hentry]
    exact h

theorem shows_limitOne {rows shown : List Row} (h : Store.Shows limitOne.asked rows shown) :
    shown = rows.take 1 := by
  have htake : Store.Shows limitOne.asked rows (rows.take 1) :=
    ⟨rows, none, some 1, .none (.inl rfl), .none (.inl rfl), .natural, rfl⟩
  exact h.unique htake

/-- The search for one record delivers the rows that the value is met by. -/
theorem delivers_limitOne (store : Store) (type : EntityType) (hone : plan.isCollection = false)
    (value : Json) :
    ∃ kept, Kept (fun row => Meets (row.get? "id") value) (store.rows plan.table) kept ∧
      Delivers plan type kept (reported plan type
        ((store.perform (plan.search [(Plan.primaryKey, value)] limitOne)
          (.whole plan.table)).answer store)) := by
  have hsorted : limitOne.Sorted := List.pairwise_singleton ..
  have hwindow : Store.WellFormedWindow limitOne.asked :=
    ⟨.inl (.inl rfl), ⟨none, .none (.inl rfl)⟩, ⟨some 1, .natural⟩⟩
  obtain ⟨kept, shown, hkept, hshows, hdelivers⟩ : ∃ kept shown,
      Kept (LooksFor [(Plan.primaryKey, value)] limitOne) (store.rows plan.table) kept ∧
      Store.Shows limitOne.asked kept shown ∧ Delivers plan type shown _ :=
    delivers_search type hsorted hwindow
  rw [shows_limitOne hshows] at hdelivers
  exact ⟨kept, (Store.kept_congr fun _ => looksFor_limitOne_iff).1 hkept, hdelivers.of_take hone⟩

/-- What a lookup of one record by `id` delivers without options, and with a limit of one: the first
row that has the value as its `id`, and the first row that meets it as a condition. Unless the value
is null or a list, this is the same record, or none in both cases. -/
theorem primaryKey_delivers (hadapter : engine.settings.adapter = .ok store.adapter)
    (hplan : (engine.compile identifier).1 = .ok (some plan))
    (hkind : plan.kind = .lookup (some Plan.primaryKey) false) (hone : plan.isCollection = false)
    (value : Json) :
    let type := ((engine.compile identifier).2.typeOf plan).1
    let straight := (engine.runStrict identifier ⟨[value], []⟩).result
    let limited := (engine.runStrict identifier ⟨[value], limitOne⟩).result
    (∃ kept, Kept (IdentifiedBy value) (store.rows plan.table) kept ∧
      Delivers plan type kept straight) ∧
    (∃ kept, Kept (fun row => Meets (row.get? "id") value) (store.rows plan.table) kept ∧
      Delivers plan type kept limited) ∧
    (value ≠ .null → (∀ items, value ≠ .array items) → SameRecord straight limited) := by
  intro type straight limited
  -- Without options the action is to go straight there, and any option makes it a search.
  have hget : plan.actions ⟨[value], []⟩ = .ok [⟨.get, [(Plan.primaryKey, value)]⟩] := by
    rw [Plan.actions, hkind, hone]
    rfl
  have hsearch : plan.actions ⟨[value], limitOne⟩ =
      .ok [plan.search [(Plan.primaryKey, value)] limitOne] := by
    rw [Plan.actions, hkind, Plan.search, hone]
    rfl
  have hstraight : straight = _ := runStrict_reported hadapter hplan hget
  have hlimited : limited = _ := runStrict_reported hadapter hplan hsearch
  rw [hstraight, hlimited]
  obtain ⟨kept, hkept, hdelivers⟩ := delivers_get store type hone value
  obtain ⟨met, hmet, hdelivers'⟩ := delivers_limitOne store type hone value
  refine ⟨⟨kept, hkept, hdelivers⟩, ⟨met, hmet, hdelivers'⟩, fun hnull hlist => ?_⟩
  rw [Store.kept_congr (Store.meets_id_iff hnull hlist)] at hmet
  rw [hmet.unique hkept] at hdelivers'
  exact hdelivers.sameRecord hdelivers' hone

def userById : Plan where
  identifier := "UserById"
  verb := .byField
  kind := .lookup (some "id") false
  isCollection := false
  target := "user"
  table := "users"

theorem compiles_userById : (ofSettings (.on .blog)).Compiles .blog "UserById" userById :=
  compiles_ofSettings rfl rfl

/-- No user has the list of two numbers as an `id`, but the first user has one of its members. -/
theorem userById_delivers_apart :
    let value : Json := .array [.number (.integer 2), .number (.integer 1)]
    (∃ fault, ((ofSettings (.on .blog)).runStrict "UserById" ⟨[value], []⟩).result = .error fault ∧
      fault.kind = .recordNotFound) ∧
    ∃ output, ((ofSettings (.on .blog)).runStrict "UserById" ⟨[value], limitOne⟩).result =
      .ok (some output) := by
  intro value
  have hplan : ((ofSettings (.on .blog)).compile "UserById").1 = .ok (some userById) := by
    obtain ⟨after, hcompile, _⟩ := compiles_userById.compile_eq
    rw [hcompile]
  obtain ⟨⟨kept, hkept, hstraight⟩, ⟨met, hmet, hlimited⟩, _⟩ :=
    primaryKey_delivers compiles_userById.adapter hplan rfl rfl value
  -- What is kept is decided by the tests that the store evaluates.
  have hkept : kept = [] :=
    hkept.unique (Store.kept_filter (fun _ => Store.hasKey_iff) (Store.blog.rows "users"))
  have hmet : met = _ :: _ :=
    hmet.unique (Store.kept_filter (fun _ => Store.satisfies_iff_meets _ _) (Store.blog.rows "users"))
  rw [hkept] at hstraight
  rw [hmet] at hlimited
  exact ⟨hstraight.of_nil rfl, _, hlimited.of_cons rfl⟩

end Engine

end NamedQuery
