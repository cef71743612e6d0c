import NamedQuery.Proofs.Engine.Runs
import NamedQuery.Proofs.Plan.Kind
import NamedQuery.Proofs.Store.Window

/-! # What lookups answer

`LooksFor` is what a lookup and its options ask of a row, and `Delivers` is how the rows that were
found become a result. A lookup on a store delivers the rows that it looks for, in the window of its
options (`delivers_search`), and fails if that window is none (`search_fails`); the query for all
records delivers the whole table (`runStrict_of_all`).

The options of a caller are a map, so their names ascend. They are looked up by `Options.asked`
throughout, for which blank options are missing. -/

namespace NamedQuery

open Store (Meets MeetsAll Kept Shows WellFormedWindow ConditionsIn)

/-! ## What a lookup asks for -/

/-- The conditions that are a lookup's own: its value for its field, or else all entries of its
value, which is a map. -/
inductive OwnConditions : Option String → Json → Fields Json → Prop where
  | field {field : String} {value : Json} : OwnConditions (some field) value [(field, value)]
  | map {conditions : Fields Json} : OwnConditions none (.object conditions) conditions

/-- A lookup asks for a row which meets its own conditions, and those among the options that are on
other fields. -/
def LooksFor (own : Fields Json) (options : Options) (row : Row) : Prop :=
  MeetsAll own row ∧
    ∀ conditions : Fields Json, options.asked "conditions" = some (.object conditions) →
      ∀ field expected, field ∉ own.names → conditions.get? field = some expected →
        Meets (row.get? field) expected

/-- A lookup of one record by `id` to which the options add nothing. -/
def GoesStraight (field : Option String) (plan : Plan) (options : Options) : Prop :=
  field = some Plan.primaryKey ∧ plan.isCollection = false ∧ ∀ name, options.asked name = none

/-- How rows become a result: all of them for a plan of many, the first one for a plan of one. -/
inductive Delivers (plan : Plan) (type : EntityType) :
    List Row → Except Fault (Option Output) → Prop where
  | collection {rows : List Row} :
      plan.isCollection = true → Delivers plan type rows (.ok (some (.collection ⟨type, rows⟩)))
  | single {row : Row} {rest : List Row} :
      plan.isCollection = false →
      Delivers plan type (row :: rest) (.ok (some (.single (type.entity row))))
  | nothing {fault : Fault} :
      plan.isCollection = false → fault.kind = .recordNotFound → Delivers plan type [] (.error fault)

namespace Plan

/-! ## The action of a lookup -/

def searchConditions (own : Fields Json) (options : Options) : Fields Json :=
  own.complete (callerConditions options.remaining)

def searchOptions (own : Fields Json) (options : Options) : Options :=
  options.remaining.insert "conditions" (.object (searchConditions own options))

def search (plan : Plan) (own : Fields Json) (options : Options) : Action :=
  ⟨if plan.isCollection then .findAll else .findFirst, searchOptions own options⟩

theorem conditionsOf_ok {field : Option String} {value : Json} {own : Fields Json}
    (h : conditionsOf field value = .ok own) : OwnConditions field value own := by
  cases field with
  | some field =>
    cases h
    exact .field
  | none =>
    cases value with
    | object conditions =>
      cases h
      exact .map
    | _ => cases h

/-- Options that leave nothing over were all blank. -/
theorem asked_eq_none_of_isEmpty {options : Options} (hsorted : options.Sorted)
    (hplain : options.get? "eager_load" = none) (h : options.remaining.isEmpty) (name : String) :
    options.asked name = none := by
  by_cases hname : "eager_load" = name
  · -- This option is not among those that remain, but it was missing from the start.
    rw [← hname]
    exact Options.asked_eq_none_of_get? hplain
  · rw [← Options.get?_remaining hsorted hname, List.isEmpty_iff.1 h]
    rfl

/-- An accepted lookup that does not go straight to a record has one action, a search. -/
theorem lookupActions_of_accepted {field : Option String} {plan : Plan} {value : Json}
    {options : Options} {actions : List Action} (hsorted : options.Sorted)
    (hplain : options.get? "eager_load" = none) (hsearch : ¬ GoesStraight field plan options)
    (h : lookupActions field plan.isCollection ⟨[value], options⟩ = .ok actions) :
    ∃ own, OwnConditions field value own ∧ actions = [plan.search own options] := by
  unfold lookupActions at h
  obtain ⟨value', hvalue, h⟩ := bind_eq_ok_iff.1 h
  cases hvalue
  obtain ⟨own, hown, h⟩ := bind_eq_ok_iff.1 h
  rw [Options.splitEagerLoad_of_none hsorted hplain] at h
  obtain ⟨split, hsplit, h⟩ := bind_eq_ok_iff.1 h
  cases hsplit
  obtain ⟨_, _, h⟩ := bind_eq_ok_iff.1 h
  refine ⟨own, conditionsOf_ok hown, ?_⟩
  -- The branch that goes straight to a record is not taken.
  rw [if_neg] at h
  · cases h
    rfl
  · rintro ⟨hfield, hone, hempty⟩
    exact hsearch ⟨hfield, by simpa using hone, asked_eq_none_of_isEmpty hsorted hplain hempty⟩

variable {own : Fields Json} {options : Options}

theorem conditionsIn_searchOptions (own : Fields Json) (options : Options) :
    ConditionsIn ((searchOptions own options).get? "conditions") (searchConditions own options) := by
  rw [searchOptions, Fields.get?_insert_self]
  exact .map

theorem sameWindow_searchOptions (hsorted : options.Sorted) :
    Store.SameWindow (searchOptions own options).get? options.asked :=
  Options.sameWindow_insert_remaining hsorted _ (by decide)

/-- The conditions of the action are met by the rows that the lookup asks for. -/
theorem meetsAll_searchConditions_iff (hsorted : options.Sorted) {row : Row} :
    MeetsAll (searchConditions own options) row ↔ LooksFor own options row := by
  have hget : options.remaining.get? "conditions" = options.asked "conditions" :=
    Options.get?_remaining hsorted (by decide)
  unfold searchConditions callerConditions
  rw [hget]
  constructor
  · intro h
    refine ⟨fun entry hentry => h entry (Fields.mem_complete_iff.2 (.inl hentry)), ?_⟩
    intro conditions hasked field expected hfield hexpected
    rw [hasked] at h
    exact h (field, expected) (Fields.mem_complete_iff.2 (.inr ⟨hfield, hexpected⟩))
  · rintro ⟨hown, hothers⟩ entry hentry
    -- An entry is the lookup's own, or it is among the options and on another field.
    rcases Fields.mem_complete_iff.1 hentry with hmem | ⟨hname, hfound⟩
    · exact hown entry hmem
    · split at hfound
      · next conditions hasked => exact hothers conditions hasked _ _ hname hfound
      · cases hfound

end Plan

/-! ## From searches to results -/

namespace Store

variable {store : Store} {options : Options} {selection : Selection}

theorem answer_search_of_error {problem : Problem} (many : Bool)
    (h : findAll store options selection = .error problem) :
    (store.perform ⟨if many then .findAll else .findFirst, options⟩ selection).answer store =
      .error problem := by
  cases many with
  | true =>
    show (Move.step selection (findAll store options selection)).answer store = _
    rw [h]
    rfl
  | false =>
    show (findFirst store options selection).answer store = _
    rw [findFirst, h]
    rfl

theorem answer_findAll {table : String} {shown : List Row}
    (h : findAll store options selection = .ok (.many table shown)) :
    (store.perform ⟨.findAll, options⟩ selection).answer store = .ok (.many shown) := by
  have hcall : (store.perform ⟨.findAll, options⟩ selection).answer store =
      (findAll store options selection).map (Selection.answer store) :=
    Move.answer_step store selection _
  rw [hcall, h]
  rfl

theorem answer_findFirst_nil {table : String}
    (h : findAll store options selection = .ok (.many table [])) :
    (store.perform ⟨.findFirst, options⟩ selection).answer store = .error (.noRow table) := by
  show (findFirst store options selection).answer store = _
  rw [findFirst, h]
  rfl

theorem answer_findFirst_cons {table : String} {row : Row} {rest : List Row}
    (h : findAll store options selection = .ok (.many table (row :: rest))) :
    (store.perform ⟨.findFirst, options⟩ selection).answer store = .ok (.one row) := by
  show (findFirst store options selection).answer store = _
  rw [findFirst, h]
  rfl

end Store

namespace Engine

variable {engine : Engine} {store : Store} {identifier : String} {plan : Plan} (type : EntityType)

/-- A search that finds rows delivers them. -/
theorem delivers_of_findAll {options : Options} {shown : List Row}
    (h : store.findAll options (.whole plan.table) = .ok (.many plan.table shown)) :
    Delivers plan type shown (reported plan type
      ((store.perform ⟨if plan.isCollection then .findAll else .findFirst, options⟩
        (.whole plan.table)).answer store)) := by
  cases hmany : plan.isCollection with
  | true =>
    rw [if_pos rfl, Store.answer_findAll h, reported_many type hmany]
    exact .collection hmany
  | false =>
    rw [if_neg Bool.false_ne_true]
    cases shown with
    | nil =>
      rw [Store.answer_findFirst_nil h, reported_error]
      refine .nothing hmany ?_
      rw [Store.fault_of_notFound rfl]
      rfl
    | cons row rest =>
      rw [Store.answer_findFirst_cons h, reported_one type hmany]
      exact .single hmany

variable {own : Fields Json} {options : Options}

/-- The search of a lookup delivers the rows that the lookup looks for. -/
theorem delivers_search (hsorted : options.Sorted) (hwindow : WellFormedWindow options.asked) :
    ∃ kept shown, Kept (LooksFor own options) (store.rows plan.table) kept ∧
      Shows options.asked kept shown ∧
      Delivers plan type shown (reported plan type
        ((store.perform (plan.search own options) (.whole plan.table)).answer store)) := by
  have hsame : Store.SameWindow (Plan.searchOptions own options).get? options.asked :=
    Plan.sameWindow_searchOptions hsorted
  obtain ⟨kept, shown, hkept, hshows, hfound⟩ := Store.findAll_of_wellFormed store
    (.whole plan.table) (Plan.conditionsIn_searchOptions own options) (hsame.symm.wellFormed hwindow)
  refine ⟨kept, shown, ?_, hsame.shows hshows, delivers_of_findAll type hfound⟩
  exact (Store.kept_congr fun row => Plan.meetsAll_searchConditions_iff hsorted).1 hkept

/-- The search of a lookup fails if its window is none. -/
theorem search_fails (hsorted : options.Sorted) (hwindow : ¬ WellFormedWindow options.asked) :
    ∃ fault, reported plan type
        ((store.perform (plan.search own options) (.whole plan.table)).answer store) =
      .error fault ∧ fault.kind = .base := by
  have hsame : Store.SameWindow (Plan.searchOptions own options).get? options.asked :=
    Plan.sameWindow_searchOptions hsorted
  obtain ⟨problem, hproblem, hbackend⟩ := Store.findAll_of_malformed store
    (.whole plan.table) (Plan.conditionsIn_searchOptions own options)
    (fun h => hwindow (hsame.wellFormed h))
  rw [Plan.search, Store.answer_search_of_error _ hproblem]
  exact reported_backend type plan hbackend

/-! ## Lookups -/

/-- The run of a lookup is the run of one search. -/
theorem runStrict_of_lookup {field : Option String} {value : Json} {actions : List Action}
    (compiled : engine.Compiles store identifier plan)
    (hkind : plan.kind = .lookup field false) (hsorted : options.Sorted)
    (hplain : options.get? "eager_load" = none) (hsearch : ¬ GoesStraight field plan options)
    (haccepted : plan.actions ⟨[value], options⟩ = .ok actions) :
    ∃ own, OwnConditions field value own ∧
      (engine.runStrict identifier ⟨[value], options⟩).result =
        reported plan (engine.typeOf plan).1
          ((store.perform (plan.search own options) (.whole plan.table)).answer store) := by
  have hactions : Plan.lookupActions field plan.isCollection ⟨[value], options⟩ = .ok actions := by
    rw [← haccepted, Plan.actions, hkind]
  obtain ⟨own, hown, rfl⟩ := Plan.lookupActions_of_accepted hsorted hplain hsearch hactions
  exact ⟨own, hown, compiled.runStrict_of_oneAction haccepted⟩

/-- The query for all records delivers the whole table. -/
theorem runStrict_of_all (compiled : engine.Compiles store identifier plan) {field : Option String}
    (hkind : plan.kind = .lookup field true) :
    (engine.runStrict identifier .none).result =
      .ok (some (.collection ⟨(engine.typeOf plan).1, store.rows plan.table⟩)) := by
  obtain ⟨intent, hread, hplan⟩ := compiled.ofIntent_eq
  have hactions : plan.actions .none = .ok [⟨.findAll, []⟩] := by
    rw [Plan.actions, hkind]
    rfl
  have hfound : store.findAll [] (.whole plan.table) =
      .ok (.many plan.table (store.rows plan.table)) := by
    show Except.ok (Store.Selection.many plan.table _) = _
    simp [Store.Window.apply, Store.satisfiesAll, Store.Selection.rows]
  rw [compiled.runStrict_of_oneAction hactions, Store.answer_findAll hfound,
    reported_many _ (Plan.isCollection_of_all hread hplan hkind)]

/-- What the lookups of an engine answer on a store, for every request without embedding that is
accepted: a lookup delivers the rows that it looks for, and the query for all records delivers the
whole table. A lookup without a field takes nothing but a map, and the query for all records takes
nothing at all. -/
theorem runStrict_lookup_delivers (compiled : engine.Compiles store identifier plan) :
    (∀ field value (options : Options) actions,
      plan.kind = .lookup field false → options.Sorted → options.get? "eager_load" = none →
      plan.actions ⟨[value], options⟩ = .ok actions → ¬ GoesStraight field plan options →
      ∃ own, OwnConditions field value own ∧
        (WellFormedWindow options.asked → ∃ kept shown,
          Kept (LooksFor own options) (store.rows plan.table) kept ∧
          Shows options.asked kept shown ∧
          Delivers plan (engine.typeOf plan).1 shown
            (engine.runStrict identifier ⟨[value], options⟩).result) ∧
        (¬ WellFormedWindow options.asked → ∃ fault,
          (engine.runStrict identifier ⟨[value], options⟩).result = .error fault ∧
          fault.kind = .base)) ∧
    (∀ value options, plan.kind = .lookup none false → (∀ conditions, value ≠ .object conditions) →
      (engine.runStrict identifier ⟨[value], options⟩).result =
        .error (.arguments .conditionsExpected)) ∧
    (∀ field, plan.kind = .lookup field true →
      (engine.runStrict identifier .none).result =
        .ok (some (.collection ⟨(engine.typeOf plan).1, store.rows plan.table⟩)) ∧
      ∀ request : Request, ¬ request.isEmpty →
        (engine.runStrict identifier request).result = .error .optionsNotPermitted) := by
  refine ⟨?_, ?_, ?_⟩
  -- Lookups, lookups that are given no map, and the query for all records.
  · intro field value options actions hkind hsorted hplain haccepted hsearch
    obtain ⟨own, hown, hrun⟩ := runStrict_of_lookup compiled hkind hsorted hplain hsearch haccepted
    rw [hrun]
    exact ⟨own, hown, delivers_search _ hsorted, search_fails _ hsorted⟩
  · intro value options hkind hvalue
    apply compiled.runStrict_of_refused
    rw [Plan.actions, hkind]
    cases value with
    | object conditions => exact absurd rfl (hvalue conditions)
    | _ => rfl
  · intro field hkind
    refine ⟨runStrict_of_all compiled hkind, fun request hrequest => ?_⟩
    apply compiled.runStrict_of_refused
    rw [Plan.actions, hkind]
    show Plan.parameterlessActions request = _
    rw [Plan.parameterlessActions, if_neg hrequest]

def usersByRole : Plan where
  identifier := "UsersByRole"
  verb := .byField
  kind := .lookup (some "role") false
  isCollection := true
  target := "user"
  table := "users"

theorem compiles_usersByRole : (ofSettings (.on .blog)).Compiles .blog "UsersByRole" usersByRole :=
  compiles_ofSettings rfl rfl

/-- The last author. -/
theorem usersByRole_delivers :
    let options : Options :=
      Fields.ofList [("order", .string "id desc"), ("limit", .number (.integer 1))]
    ∃ own kept shown, OwnConditions (some "role") (.string "author") own ∧
      Kept (LooksFor own options) (Store.blog.rows "users") kept ∧
      Shows options.asked kept shown ∧
      Delivers usersByRole ((ofSettings (.on .blog)).typeOf usersByRole).1 shown
        ((ofSettings (.on .blog)).runStrict "UsersByRole" ⟨[.string "author"], options⟩).result := by
  intro options
  have hsorted : options.Sorted := Fields.sorted_ofList _
  have hsearch : ¬ GoesStraight (some "role") usersByRole options :=
    fun h => absurd h.1 (by decide)
  have hwindow : WellFormedWindow options.asked :=
    ⟨.inr ⟨"id desc", rfl⟩, ⟨none, .none (.inl rfl)⟩, ⟨some 1, .natural⟩⟩
  obtain ⟨own, hown, hdelivers, _⟩ := (runStrict_lookup_delivers compiles_usersByRole).1
    (some "role") (.string "author") options _ rfl hsorted rfl rfl hsearch
  obtain ⟨kept, shown, hkept, hshows, hresult⟩ := hdelivers hwindow
  exact ⟨own, kept, shown, hown, hkept, hshows, hresult⟩

end Engine

end NamedQuery
