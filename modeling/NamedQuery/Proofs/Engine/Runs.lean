import NamedQuery.Engine.Basic
import NamedQuery.Proofs.Plan.Options
import NamedQuery.Proofs.Store.Calls
import NamedQuery.Proofs.Text.Trim

/-! # Runs on a store

A run gives what its calls come to in a session that has done nothing before (`run_result`).
`Engine.Compiles` says that an identifier has a plan on the store that an engine works on, whether
the engine compiles it now or did so before, and running such an identifier gives what the plan
gives on the store (`runStrict_result`). -/

namespace NamedQuery

namespace Store

def fault (problem : Problem) : Fault :=
  .ofFailure [.notFound, .backend] problem.failure

theorem fault_of_backend {problem : Problem} (h : problem.kind = .backend) :
    fault problem = .failed problem.message := by
  simp [fault, Fault.ofFailure, Problem.failure, h]

theorem fault_of_notFound {problem : Problem} (h : problem.kind = .notFound) :
    fault problem = .notFound problem.message := by
  simp [fault, Fault.ofFailure, Problem.failure, h]

end Store

/-! ## Runs -/

/-- A run gives the answer of its calls in a new session. A record that is read back is the record
that the last call has selected. -/
theorem Plan.run_result {store : Store} {plan : Plan} {request : Request} {actions : List Action}
    (h : plan.actions request = .ok actions) (hactions : actions ≠ []) :
    (plan.run store.adapter request).result =
      ((store.performEach actions (.whole plan.table)).map
        (Store.Selection.answer store)).mapError Store.fault := by
  have hready : Run.ready plan store.adapter request =
      .ok ⟨plan, actions, [.notFound, .backend], store.session plan.table⟩ := by
    rw [Run.ready, h]
    rfl
  rw [Plan.run, hready]
  have hstart : Store.selectionAfter store (.whole plan.table) [] = .whole plan.table := rfl
  cases heach : store.performEach actions (.whole plan.table) with
  | error problem =>
    have hperformed : ((store.session plan.table).performAll [] none actions).1 =
        .error problem.failure := Store.performAll_of_error hstart heach
    simp only [Run.outcome, hperformed]
    rfl
  | ok last =>
    have hanswer : actions = [] → none = some (Store.Selection.answer store (.whole plan.table)) :=
      fun hnil => absurd hnil hactions
    obtain ⟨hperformed, hafter⟩ := Store.performAll_of_ok hstart hanswer heach
    rw [List.nil_append] at hafter
    have hattributes : (store.session plan.table).attributes actions =
        (Store.attributes last).mapError Store.Problem.failure := by
      rw [← hafter]
      rfl
    simp only [Run.outcome, hperformed, hattributes]
    cases last with
    | whole table => rfl
    | many table rows => rfl
    | one table row =>
      -- A plan of one reads the record back, and the session has just this one selected.
      cases plan.isCollection <;> rfl

/-- A request that is refused is not run. -/
theorem Plan.run_result_of_refused {plan : Plan} {adapter : Adapter} {request : Request}
    {fault : Fault} (h : plan.actions request = .error fault) :
    (plan.run adapter request).result = .error fault := by
  have hready : Run.ready plan adapter request = .error fault := by
    rw [Run.ready, h]
    rfl
  rw [Plan.run, hready]

theorem Plan.run_result_of_oneAction {store : Store} {plan : Plan} {request : Request}
    {action : Action} (h : plan.actions request = .ok [action]) :
    (plan.run store.adapter request).result =
      ((store.perform action (.whole plan.table)).answer store).mapError Store.fault := by
  have hone : store.performEach [action] (.whole plan.table) =
      (store.perform action (.whole plan.table)).outcome := by
    rw [Store.performEach]
    cases (store.perform action (.whole plan.table)).outcome <;> rfl
  rw [Plan.run_result h (List.cons_ne_nil _ _), hone, Store.Move.answer_eq]

namespace Engine

/-! ## Reports -/

def reported (plan : Plan) (type : EntityType) (answer : Except Store.Problem Answer) :
    Except Fault (Option Output) :=
  ((answer.mapError Store.fault).bind (output plan type)).map some

variable {plan : Plan} (type : EntityType)

theorem reported_error (plan : Plan) (problem : Store.Problem) :
    reported plan type (.error problem) = .error (Store.fault problem) := rfl

/-- An unexpected problem of a store is a fault of the base kind. -/
theorem reported_backend {problem : Store.Problem} (plan : Plan) (h : problem.kind = .backend) :
    ∃ fault, reported plan type (.error problem) = .error fault ∧ fault.kind = .base := by
  refine ⟨Store.fault problem, rfl, ?_⟩
  rw [Store.fault_of_backend h]
  rfl

theorem reported_many (h : plan.isCollection = true) (rows : List Row) :
    reported plan type (.ok (.many rows)) = .ok (some (.collection ⟨type, rows⟩)) := by
  have houtput : output plan type (.many rows) = .ok (.collection ⟨type, rows⟩) := by
    unfold output
    rw [h]
  show (output plan type (.many rows)).map some = _
  rw [houtput]
  rfl

theorem reported_one (h : plan.isCollection = false) (row : Row) :
    reported plan type (.ok (.one row)) = .ok (some (.single (type.entity row))) := by
  have houtput : output plan type (.one row) = .ok (.single (type.entity row)) := by
    unfold output
    rw [h]
  show (output plan type (.one row)).map some = _
  rw [houtput]
  rfl

/-! ## Running plans and identifiers -/

section Running

variable {engine : Engine} {store : Store} {identifier : String}

theorem withPlan_result {α : Type} (engine : Engine) (identifier : String)
    (go : Engine → Plan → Step α) :
    (engine.withPlan identifier go).result =
      match (engine.compile identifier).1 with
      | .ok (some plan) => (go (engine.compile identifier).2 plan).result.map some
      | .ok none => .ok none
      | .error fault => .error fault := by
  unfold withPlan
  rcases engine.compile identifier with ⟨_ | _ | plan, compiled⟩ <;> rfl

theorem execute_result (hadapter : engine.settings.adapter = .ok store.adapter) (plan : Plan)
    (request : Request) :
    (engine.execute plan request).result =
      (plan.run store.adapter request).result.bind (output plan (engine.typeOf plan).1) := by
  unfold execute
  simp only [hadapter]

theorem runStrict_of_compile (hplan : (engine.compile identifier).1 = .ok (some plan))
    (request : Request) :
    (engine.runStrict identifier request).result =
      ((engine.compile identifier).2.execute plan request).result.map some := by
  rw [runStrict, withPlan_result, hplan]

theorem run_of_compile (hplan : (engine.compile identifier).1 = .ok (some plan)) (request : Request) :
    (engine.run identifier request).result =
      (lenient ((engine.compile identifier).2.execute plan request).result).map some := by
  rw [run, withPlan_result, hplan]

end Running

/-! ## Compiled identifiers -/

/-- An identifier has a plan on the store that an engine works on: this is the plan that it compiles
to, and the engine has registered no other one for it. -/
structure Compiles (engine : Engine) (store : Store) (identifier : String) (plan : Plan) :
    Prop where
  adapter : engine.settings.adapter = .ok store.adapter
  planned : plan? engine.settings identifier = .ok (some plan)
  registered : ∀ other, engine.plans.get? (Text.trimmed identifier) = some other → other = plan

/-- White space around an identifier changes nothing about its plan. -/
theorem plan?_trimmed (settings : Settings) (identifier : String) :
    plan? settings (Text.trimmed identifier) = plan? settings identifier := by
  have hread : Identifier.read (Text.trimmed identifier) = Identifier.read identifier := by
    unfold Identifier.read
    rw [Text.trimmed, String.toList_ofList, Text.trim_trim]
  rw [plan?, plan?, hread]

/-- A plan that an identifier has comes from what the identifier is read as. -/
theorem intent_of_plan? {settings : Settings} {identifier : String} {plan : Plan}
    (h : plan? settings identifier = .ok (some plan)) :
    ∃ intent adapter, Identifier.read identifier = .query intent ∧
      settings.adapter = .ok adapter ∧ Plan.ofIntent intent adapter = .ok plan := by
  unfold plan? at h
  cases hread : Identifier.read identifier with
  | notQuery | severalBy _ =>
    rw [hread] at h
    cases h
  | query intent =>
    rw [hread] at h
    obtain ⟨adapter, hadapter, h⟩ := bind_eq_ok_iff.1 h
    obtain ⟨found, hfound, h⟩ := bind_eq_ok_iff.1 h
    cases h
    exact ⟨intent, adapter, rfl, hadapter, hfound⟩

theorem compiles_ofSettings {settings : Settings} {store : Store} {identifier : String} {plan : Plan}
    (hadapter : settings.adapter = .ok store.adapter)
    (hplan : plan? settings identifier = .ok (some plan)) :
    (ofSettings settings).Compiles store identifier plan :=
  ⟨hadapter, hplan, nofun⟩

namespace Compiles

variable {engine : Engine} {store : Store} {identifier : String} {plan : Plan}

theorem compile_eq (h : engine.Compiles store identifier plan) :
    ∃ after, engine.compile identifier = (.ok (some plan), after) ∧
      after.settings = engine.settings ∧ after.types = engine.types := by
  unfold compile
  simp only []
  -- A registered plan is the plan by assumption, and a new one by planning.
  cases hget : engine.plans.get? (Text.trimmed identifier) with
  | some other =>
    obtain rfl := h.registered other hget
    exact ⟨engine, rfl, rfl, rfl⟩
  | none =>
    simp only [plan?_trimmed, h.planned]
    exact ⟨_, rfl, rfl, rfl⟩

/-- The plan comes from what the identifier is read as. -/
theorem ofIntent_eq (h : engine.Compiles store identifier plan) :
    ∃ intent, Identifier.read identifier = .query intent ∧
      Plan.ofIntent intent store.adapter = .ok plan := by
  obtain ⟨intent, adapter, hread, hadapter, hplan⟩ := intent_of_plan? h.planned
  cases h.adapter.symm.trans hadapter
  exact ⟨intent, hread, hplan⟩

/-- Running a compiled identifier gives what its plan gives on the store, as an output. -/
theorem runStrict_result (h : engine.Compiles store identifier plan) (request : Request) :
    (engine.runStrict identifier request).result =
      ((plan.run store.adapter request).result.bind (output plan (engine.typeOf plan).1)).map
        some := by
  obtain ⟨after, hcompile, hsettings, htypes⟩ := h.compile_eq
  have htype : (after.typeOf plan).1 = (engine.typeOf plan).1 := by
    rw [typeOf, typeOf, hsettings, htypes]
    cases engine.settings.entityType? plan.entityKey with
    | some type => rfl
    | none => cases engine.types.get? plan.typeName <;> rfl
  have hadapter : after.settings.adapter = .ok store.adapter := by rw [hsettings, h.adapter]
  have hplan : (engine.compile identifier).1 = .ok (some plan) := by rw [hcompile]
  rw [runStrict_of_compile hplan, hcompile, execute_result hadapter, htype]

/-- A request that comes to one action is answered by the store. -/
theorem runStrict_of_oneAction (h : engine.Compiles store identifier plan) {request : Request}
    {action : Action} (hactions : plan.actions request = .ok [action]) :
    (engine.runStrict identifier request).result =
      reported plan (engine.typeOf plan).1
        ((store.perform action (.whole plan.table)).answer store) := by
  rw [h.runStrict_result, Plan.run_result_of_oneAction hactions]
  rfl

/-- A request that comes to no actions is refused for the same reason. -/
theorem runStrict_of_refused (h : engine.Compiles store identifier plan) {request : Request}
    {fault : Fault} (hactions : plan.actions request = .error fault) :
    (engine.runStrict identifier request).result = .error fault := by
  rw [h.runStrict_result, Plan.run_result_of_refused hactions]
  rfl

end Compiles

end Engine

/-! ## One store -/

def Settings.on (store : Store) : Settings :=
  (Settings.empty.registerAdapter "memory" store.adapter).useAdapter "memory"

end NamedQuery
