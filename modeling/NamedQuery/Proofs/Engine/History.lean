import NamedQuery.Proofs.Engine.Runs
import NamedQuery.Proofs.Plan.Kind

/-! # Histories of an engine

Everything that can be asked of an engine is an operation, and a history is a list of operations,
one after another. `advances` says once what an operation does to an engine: it adds at most one
plan and at most one type, each under a new name, and it counts a compilation for each new plan.
`Advances` is what the laws of caches and counters are derived from. -/

namespace NamedQuery

inductive Operation where
  | compile (identifier : String)
  | actions (identifier : String) (request : Request)
  | run (identifier : String) (request : Request)
  | runStrict (identifier : String) (request : Request)
  | execute (plan : Plan) (request : Request)
  | registerAdapter (name : String) (adapter : Adapter)
  | useAdapter (name : String)
  | registerEntity (key : String) (type : EntityType)
  | reset

inductive Reply where
  | plan (result : Except Fault (Option Plan))
  | actions (result : Except Fault (Option (List Action)))
  | run (result : Except Fault (Option (Option Output)))
  | runStrict (result : Except Fault (Option Output))
  | executed (result : Except Fault Output)
  | done

namespace Operation

def identifier? : Operation → Option String
  | compile identifier => some identifier
  | actions identifier _ => some identifier
  | run identifier _ => some identifier
  | runStrict identifier _ => some identifier
  | _ => none

def settle (operation : Operation) (settings : Settings) : Settings :=
  match operation with
  | registerAdapter name adapter => settings.registerAdapter name adapter
  | useAdapter name => settings.useAdapter name
  | registerEntity key type => settings.registerEntity key type
  | reset => .empty
  | _ => settings

end Operation

namespace Engine

/-! ## Performing operations -/

def perform (engine : Engine) (operation : Operation) : Reply × Engine :=
  match operation with
  | .compile identifier => (.plan (engine.compile identifier).1, (engine.compile identifier).2)
  | .actions identifier request =>
    let step := engine.actions identifier request
    (.actions step.result, step.engine)
  | .run identifier request =>
    let step := engine.run identifier request
    (.run step.result, step.engine)
  | .runStrict identifier request =>
    let step := engine.runStrict identifier request
    (.runStrict step.result, step.engine)
  | .execute plan request =>
    let step := engine.execute plan request
    (.executed step.result, step.engine)
  | .registerAdapter _ _ | .useAdapter _ | .registerEntity _ _ =>
    (.done, engine.configure operation.settle)
  | .reset => (.done, engine.reset)

def after (engine : Engine) (history : List Operation) : Engine :=
  history.foldl (fun engine operation => (engine.perform operation).2) engine

theorem after_append_singleton (engine : Engine) (history : List Operation) (operation : Operation) :
    engine.after (history ++ [operation]) = ((engine.after history).perform operation).2 := by
  simp [after]

/-- What every operation keeps, a history keeps. -/
theorem after_induction {motive : Engine → Prop} {engine : Engine} {history : List Operation}
    (start : motive engine)
    (step : ∀ engine, ∀ operation ∈ history, motive engine → motive (engine.perform operation).2) :
    motive (engine.after history) := by
  induction history generalizing engine with
  | nil => exact start
  | cons operation rest ih =>
    exact ih (step engine operation (List.mem_cons_self ..) start)
      fun engine other hother => step engine other (List.mem_cons_of_mem _ hother)

def planFor? (engine : Engine) (identifier : String) : Option Plan :=
  match (engine.compile identifier).1 with
  | .ok plan => plan
  | .error _ => none

/-- The name under which an operation compiles a plan, if it compiles one. -/
def compiled? (engine : Engine) (operation : Operation) : Option String :=
  operation.identifier?.bind fun identifier =>
    (engine.planFor? identifier).map fun _ => Text.trimmed identifier

def executed? (engine : Engine) (operation : Operation) : Option Plan :=
  match operation with
  | .run identifier _ => engine.planFor? identifier
  | .runStrict identifier _ => engine.planFor? identifier
  | .execute plan _ => some plan
  | _ => none

/-- The conventional name of the type of a plan that is executed, if the adapter in use is usable
and no type is registered for the plan. -/
def conventional? (engine : Engine) (plan : Plan) : Option String :=
  match engine.settings.adapter, engine.settings.entityType? plan.entityKey with
  | .ok _, none => some plan.typeName
  | _, _ => none

/-- The name of the type that an operation makes up, or has made up before. -/
def madeUp? (engine : Engine) (operation : Operation) : Option String :=
  (engine.executed? operation).bind engine.conventional?

/-! ## What an operation does -/

/-- Named values stay as they are, or a proper one is added under a name that is new. The name is
given also if it is there already. -/
inductive Grows {α : Type} (proper : String → α → Prop) (fields : Fields α) :
    Option String → Fields α → Prop where
  | same : Grows proper fields none fields
  | known {name : String} {value : α} : fields.get? name = some value →
      Grows proper fields (some name) fields
  | added {name : String} {value : α} : fields.get? name = none → proper name value →
      Grows proper fields (some name) (fields.insert name value)

/-- A registered plan is one that its name has with the settings, and its name is trimmed. -/
def ProperPlan (settings : Settings) (name : String) (plan : Plan) : Prop :=
  Text.IsTrimmed name.toList ∧ plan? settings name = .ok (some plan)

def ProperType (name : String) (type : EntityType) : Prop :=
  type = .plain name

/-- How an engine changes with an operation other than a reset. -/
structure Advances (engine : Engine) (operation : Operation) (next : Engine) : Prop where
  plans : Grows (ProperPlan engine.settings) engine.plans (engine.compiled? operation) next.plans
  types : Grows ProperType engine.types (engine.madeUp? operation) next.types
  compilations : next.compilations + engine.plans.length = engine.compilations + next.plans.length
  settings : next.settings = operation.settle engine.settings

section Grows

variable {α : Type} {proper property : String → α → Prop} {fields next : Fields α}
  {name? : Option String}

theorem Grows.get? (h : Grows proper fields name? next)
    (hfields : ∀ name value, fields.get? name = some value → property name value)
    (hproper : ∀ name value, proper name value → property name value) :
    ∀ name value, next.get? name = some value → property name value := by
  cases h with
  | same => exact hfields
  | known _ => exact hfields
  | @added added value _ hadded =>
    intro name found hfound
    rw [Fields.get?_insert] at hfound
    split at hfound
    · next heq =>
      cases hfound
      exact heq ▸ hproper added value hadded
    · exact hfields name found hfound

theorem Grows.sorted (h : Grows proper fields name? next) (hsorted : fields.Sorted) :
    next.Sorted := by
  cases h with
  | same => exact hsorted
  | known _ => exact hsorted
  | added _ _ => exact hsorted.insert _ _

theorem Grows.mem_names_iff (h : Grows proper fields name? next) (name : String) :
    name ∈ next.names ↔ name ∈ fields.names ∨ name ∈ name? := by
  cases h with
  | same => simp
  | @known known value hknown =>
    have hmem : known ∈ fields.names := List.mem_map_of_mem (f := Prod.fst) (Fields.mem_of_get? hknown)
    constructor
    · exact .inl
    · rintro (h | h)
      · exact h
      · cases h
        exact hmem
  | added hnew _ =>
    have hnotMem := Fields.notMem_names_of_get? hnew
    rw [Fields.names_insert_iff hnotMem, or_comm, Option.mem_some, eq_comm (b := name)]

theorem Grows.length_le (h : Grows proper fields name? next) : fields.length ≤ next.length := by
  cases h with
  | same => exact Nat.le_refl _
  | known _ => exact Nat.le_refl _
  | added hnew _ =>
    rw [Fields.length_insert _ (Fields.notMem_names_of_get? hnew)]
    exact Nat.le_succ _

end Grows

/-! ## Compiling -/

/-- Compiling finds a plan, makes one, or does nothing. -/
inductive Compilation (engine : Engine) (identifier : String) :
    Except Fault (Option Plan) × Engine → Prop where
  | known {plan : Plan} : engine.plans.get? (Text.trimmed identifier) = some plan →
      Compilation engine identifier (.ok (some plan), engine)
  | anew {plan : Plan} : engine.plans.get? (Text.trimmed identifier) = none →
      plan? engine.settings identifier = .ok (some plan) →
      Compilation engine identifier (.ok (some plan),
        { engine with
          plans := engine.plans.insert (Text.trimmed identifier) plan
          compilations := engine.compilations + 1 })
  | unplanned {result : Except Fault (Option Plan)} :
      engine.plans.get? (Text.trimmed identifier) = none →
      plan? engine.settings identifier = result → (∀ plan, result ≠ .ok (some plan)) →
      Compilation engine identifier (result, engine)

theorem compilation_compile (engine : Engine) (identifier : String) :
    engine.Compilation identifier (engine.compile identifier) := by
  unfold compile
  simp only [plan?_trimmed]
  cases hget : engine.plans.get? (Text.trimmed identifier) with
  | some plan => exact .known hget
  | none =>
    cases hplan : plan? engine.settings identifier with
    | error fault => exact .unplanned hget hplan nofun
    | ok found =>
      cases found with
      | none => exact .unplanned hget hplan nofun
      | some plan => exact .anew hget hplan

theorem compile_plans (engine : Engine) (identifier : String) :
    Grows (ProperPlan engine.settings) engine.plans
      ((engine.planFor? identifier).map fun _ => Text.trimmed identifier)
      (engine.compile identifier).2.plans := by
  have h := compilation_compile engine identifier
  -- The name that was compiled is given for both a known plan and a new one.
  unfold planFor?
  generalize engine.compile identifier = compiled at h
  cases h with
  | known hget => exact .known hget
  | anew hget hplan =>
    refine .added hget ⟨?_, ?_⟩
    · rw [Text.trimmed, String.toList_ofList]
      exact Text.isTrimmed_trim identifier.toList
    · rw [plan?_trimmed, hplan]
  | @unplanned result _ _ hresult =>
    cases result with
    | error fault => exact .same
    | ok found =>
      cases found with
      | none => exact .same
      | some plan => exact absurd rfl (hresult plan)

theorem compile_compilations (engine : Engine) (identifier : String) :
    (engine.compile identifier).2.compilations + engine.plans.length =
      engine.compilations + (engine.compile identifier).2.plans.length := by
  have h := compilation_compile engine identifier
  generalize engine.compile identifier = compiled at h
  cases h with
  | known _ => rfl
  | @anew plan hget _ =>
    have hlength := Fields.length_insert plan (Fields.notMem_names_of_get? hget)
    simp only [hlength]
    omega
  | unplanned _ _ _ => rfl

@[simp] theorem compile_types (engine : Engine) (identifier : String) :
    (engine.compile identifier).2.types = engine.types := by
  have h := compilation_compile engine identifier
  generalize engine.compile identifier = compiled at h
  cases h <;> rfl

@[simp] theorem compile_settings (engine : Engine) (identifier : String) :
    (engine.compile identifier).2.settings = engine.settings := by
  have h := compilation_compile engine identifier
  generalize engine.compile identifier = compiled at h
  cases h <;> rfl

/-! ## Executing -/

/-- A plan takes the type that is registered for it, or else finds the conventional one or makes
it up. -/
inductive Typing (engine : Engine) (plan : Plan) : EntityType × Engine → Prop where
  | registered {type : EntityType} : engine.settings.entityType? plan.entityKey = some type →
      Typing engine plan (type, engine)
  | known {type : EntityType} : engine.settings.entityType? plan.entityKey = none →
      engine.types.get? plan.typeName = some type → Typing engine plan (type, engine)
  | anew : engine.settings.entityType? plan.entityKey = none →
      engine.types.get? plan.typeName = none →
      Typing engine plan (.plain plan.typeName,
        { engine with types := engine.types.insert plan.typeName (.plain plan.typeName) })

theorem typing_typeOf (engine : Engine) (plan : Plan) : engine.Typing plan (engine.typeOf plan) := by
  unfold typeOf
  cases hregistered : engine.settings.entityType? plan.entityKey with
  | some type => exact .registered hregistered
  | none =>
    cases hknown : engine.types.get? plan.typeName with
    | some type => exact .known hregistered hknown
    | none => exact .anew hregistered hknown

theorem execute_engine (engine : Engine) (plan : Plan) (request : Request) :
    (engine.execute plan request).engine =
      match engine.settings.adapter with
      | .ok _ => (engine.typeOf plan).2
      | .error _ => engine := by
  unfold execute
  cases engine.settings.adapter <;> rfl

theorem execute_types (engine : Engine) (plan : Plan) (request : Request) :
    Grows ProperType engine.types (engine.conventional? plan)
      (engine.execute plan request).engine.types := by
  rw [execute_engine, conventional?]
  cases engine.settings.adapter with
  | error fault => exact .same
  | ok adapter =>
    have h := typing_typeOf engine plan
    simp only []
    generalize engine.typeOf plan = typed at h
    cases h with
    | registered hregistered =>
      rw [hregistered]
      exact .same
    | known hregistered hknown =>
      rw [hregistered]
      exact .known hknown
    | anew hregistered hnew =>
      rw [hregistered]
      exact .added hnew rfl

/-- Executing leaves all but the types. -/
theorem execute_rest (engine : Engine) (plan : Plan) (request : Request) :
    ∃ types, (engine.execute plan request).engine = { engine with types } := by
  rw [execute_engine]
  cases engine.settings.adapter with
  | error fault => exact ⟨engine.types, rfl⟩
  | ok adapter =>
    have h := typing_typeOf engine plan
    simp only []
    generalize engine.typeOf plan = typed at h
    cases h with
    | registered _ => exact ⟨engine.types, rfl⟩
    | known _ _ => exact ⟨engine.types, rfl⟩
    | anew _ _ => exact ⟨_, rfl⟩

/-! ## All operations -/

theorem withPlan_engine {α : Type} (engine : Engine) (identifier : String)
    (go : Engine → Plan → Step α) :
    (engine.withPlan identifier go).engine =
      match engine.planFor? identifier with
      | some plan => (go (engine.compile identifier).2 plan).engine
      | none => (engine.compile identifier).2 := by
  unfold withPlan planFor?
  rcases engine.compile identifier with ⟨_ | _ | plan, compiled⟩ <;> rfl

/-- Compiling alone. -/
theorem advances_compile {engine : Engine} {operation : Operation} {identifier : String}
    (hidentifier : operation.identifier? = some identifier)
    (hexecuted : engine.executed? operation = none)
    (hsettle : operation.settle engine.settings = engine.settings) :
    engine.Advances operation (engine.compile identifier).2 := by
  refine ⟨?_, ?_, compile_compilations engine identifier, ?_⟩
  · rw [compiled?, hidentifier]
    exact compile_plans engine identifier
  · rw [madeUp?, hexecuted, compile_types]
    exact .same
  · rw [hsettle, compile_settings]

/-- Compiling, and executing the plan if there is one. -/
theorem advances_run {engine : Engine} {operation : Operation} {identifier : String}
    (request : Request) (hidentifier : operation.identifier? = some identifier)
    (hexecuted : engine.executed? operation = engine.planFor? identifier)
    (hsettle : operation.settle engine.settings = engine.settings) :
    engine.Advances operation
      (match engine.planFor? identifier with
      | some plan => ((engine.compile identifier).2.execute plan request).engine
      | none => (engine.compile identifier).2) := by
  cases hplan : engine.planFor? identifier with
  | none =>
    rw [hplan] at hexecuted
    exact advances_compile hidentifier hexecuted hsettle
  | some plan =>
    rw [hplan] at hexecuted
    -- What follows the compilation may make up a type and changes nothing else.
    have htypes := execute_types (engine.compile identifier).2 plan request
    obtain ⟨types, hrest⟩ := execute_rest (engine.compile identifier).2 plan request
    simp only [hrest] at htypes ⊢
    refine ⟨?_, ?_, compile_compilations engine identifier, ?_⟩
    · rw [compiled?, hidentifier]
      exact compile_plans engine identifier
    · rw [madeUp?, hexecuted]
      simpa [conventional?] using htypes
    · rw [hsettle, compile_settings]

/-- What an operation other than a reset does. -/
theorem advances (engine : Engine) {operation : Operation} (h : operation ≠ .reset) :
    engine.Advances operation (engine.perform operation).2 := by
  -- What goes by an identifier changes an engine by compiling it, and by the type of a run.
  cases operation with
  | compile identifier => exact advances_compile rfl rfl rfl
  | actions identifier request =>
    have hengine : (engine.actions identifier request).engine = (engine.compile identifier).2 := by
      rw [actions, withPlan_engine]
      cases engine.planFor? identifier <;> rfl
    show engine.Advances _ (engine.actions identifier request).engine
    rw [hengine]
    exact advances_compile rfl rfl rfl
  | run identifier request =>
    show engine.Advances _ (engine.run identifier request).engine
    rw [run, withPlan_engine]
    exact advances_run request rfl rfl rfl
  | runStrict identifier request =>
    show engine.Advances _ (engine.runStrict identifier request).engine
    rw [runStrict, withPlan_engine]
    exact advances_run request rfl rfl rfl
  | execute plan request =>
    have htypes := execute_types engine plan request
    obtain ⟨types, hrest⟩ := execute_rest engine plan request
    show engine.Advances _ (engine.execute plan request).engine
    rw [hrest] at htypes ⊢
    exact ⟨.same, htypes, rfl, rfl⟩
  | registerAdapter name adapter => exact ⟨.same, .same, rfl, rfl⟩
  | useAdapter name => exact ⟨.same, .same, rfl, rfl⟩
  | registerEntity key type => exact ⟨.same, .same, rfl, rfl⟩
  | reset => exact absurd rfl h

/-! ## What is registered -/

/-- Every registered plan is one that its name had with some settings. -/
def Rooted (engine : Engine) : Prop :=
  ∀ name plan, engine.plans.get? name = some plan → ∃ settings, ProperPlan settings name plan

theorem rooted_perform {engine : Engine} (h : engine.Rooted) (operation : Operation) :
    (engine.perform operation).2.Rooted := by
  by_cases hreset : operation = .reset
  · subst hreset
    exact nofun
  · exact (advances engine hreset).plans.get? h fun _ _ hproper => ⟨engine.settings, hproper⟩

theorem rooted_after (settings : Settings) (history : List Operation) :
    ((ofSettings settings).after history).Rooted :=
  after_induction nofun fun _ operation _ h => rooted_perform h operation

end Engine

end NamedQuery
