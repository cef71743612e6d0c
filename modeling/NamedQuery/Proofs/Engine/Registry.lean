import Mathlib.Algebra.GroupWithZero.Nat
import Mathlib.Data.Finset.Card
import NamedQuery.Proofs.Engine.History

/-! # The registry over whole histories

A chronicle is a history with what it leaves to count: the operations since the last reset, each
with the engine that it was asked of, and the same of every epoch between resets before. The plans,
the types and the counter of an engine are in step with its chronicle (`InStep`), by induction over
the history: `InStep.next` is the step, and it needs of an operation only what `Advances` says. -/

namespace NamedQuery

/-- An operation, and the engine that it was asked of. -/
structure Moment where
  engine : Engine
  operation : Operation

structure Chronicle where
  engine : Engine
  /-- The epochs that ended with a reset. -/
  past : List (List Moment)
  /-- What came after the last reset. -/
  epoch : List Moment

namespace Chronicle

def start (settings : Settings) : Chronicle := ⟨.ofSettings settings, [], []⟩

def next (chronicle : Chronicle) (operation : Operation) : Chronicle :=
  let engine := (chronicle.engine.perform operation).2
  match operation with
  | .reset => ⟨engine, chronicle.past ++ [chronicle.epoch], []⟩
  | _ => ⟨engine, chronicle.past, chronicle.epoch ++ [⟨chronicle.engine, operation⟩]⟩

def ofHistory (settings : Settings) (history : List Operation) : Chronicle :=
  history.foldl next (start settings)

/-- The names under which plans were compiled in an epoch. -/
def compiledIn (epoch : List Moment) : Finset String :=
  (epoch.filterMap fun moment => moment.engine.compiled? moment.operation).toFinset

/-- The conventional names of types that were made up in an epoch. -/
def madeUpIn (epoch : List Moment) : Finset String :=
  (epoch.filterMap fun moment => moment.engine.madeUp? moment.operation).toFinset

/-- How many names were compiled in each of some epochs, all together. -/
def compilationsIn (epochs : List (List Moment)) : Nat :=
  (epochs.map fun epoch => (compiledIn epoch).card).sum

/-! ## One operation -/

theorem mem_compiledIn_append {epoch : List Moment} {moment : Moment} {name : String} :
    name ∈ compiledIn (epoch ++ [moment]) ↔
      name ∈ compiledIn epoch ∨ name ∈ moment.engine.compiled? moment.operation := by
  simp [compiledIn, List.filterMap_append]

theorem mem_madeUpIn_append {epoch : List Moment} {moment : Moment} {name : String} :
    name ∈ madeUpIn (epoch ++ [moment]) ↔
      name ∈ madeUpIn epoch ∨ name ∈ moment.engine.madeUp? moment.operation := by
  simp [madeUpIn, List.filterMap_append]

theorem next_of_ne_reset (chronicle : Chronicle) {operation : Operation} (h : operation ≠ .reset) :
    chronicle.next operation =
      ⟨(chronicle.engine.perform operation).2, chronicle.past,
        chronicle.epoch ++ [⟨chronicle.engine, operation⟩]⟩ := by
  cases operation <;> first | rfl | exact absurd rfl h

/-- Named values are as many as there are names in a set, if these are their names. -/
theorem length_eq_card {α : Type} {fields : Fields α} {names : Finset String}
    (hsorted : fields.Sorted) (h : ∀ name, name ∈ fields.names ↔ name ∈ names) :
    fields.length = names.card := by
  have hnames : fields.names.toFinset = names := by
    ext name
    rw [List.mem_toFinset, h]
  calc fields.length = fields.names.length := (List.length_map _).symm
    _ = fields.names.toFinset.card := (List.toFinset_card_of_nodup hsorted.nodup_names).symm
    _ = names.card := by rw [hnames]

/-- What an engine keeps is in step with its chronicle. -/
structure InStep (chronicle : Chronicle) : Prop where
  plansSorted : chronicle.engine.plans.Sorted
  typesSorted : chronicle.engine.types.Sorted
  plans : ∀ name, name ∈ chronicle.engine.plans.names ↔ name ∈ compiledIn chronicle.epoch
  types : ∀ name, name ∈ chronicle.engine.types.names ↔ name ∈ madeUpIn chronicle.epoch
  compilations : chronicle.engine.compilations =
    compilationsIn chronicle.past + chronicle.engine.plans.length

variable {chronicle : Chronicle}

theorem inStep_start (settings : Settings) : (start settings).InStep where
  plansSorted := Fields.sorted_nil
  typesSorted := Fields.sorted_nil
  plans _ := by simp [start, Engine.ofSettings, compiledIn, Fields.names]
  types _ := by simp [start, Engine.ofSettings, madeUpIn, Fields.names]
  compilations := rfl

theorem InStep.length_plans (h : chronicle.InStep) :
    chronicle.engine.plans.length = (compiledIn chronicle.epoch).card :=
  length_eq_card h.plansSorted h.plans

theorem InStep.length_types (h : chronicle.InStep) :
    chronicle.engine.types.length = (madeUpIn chronicle.epoch).card :=
  length_eq_card h.typesSorted h.types

theorem InStep.compilations_eq (h : chronicle.InStep) :
    chronicle.engine.compilations = compilationsIn (chronicle.past ++ [chronicle.epoch]) := by
  rw [h.compilations, h.length_plans]
  simp [compilationsIn]

theorem InStep.next (h : chronicle.InStep) (operation : Operation) :
    (chronicle.next operation).InStep := by
  by_cases hreset : operation = .reset
  · -- The epoch is closed with what was counted in it, and a new one begins.
    subst hreset
    have hcompilations := h.compilations_eq
    refine ⟨Fields.sorted_nil, Fields.sorted_nil, ?_, ?_, ?_⟩
    · simp [Chronicle.next, Engine.perform, Engine.reset, Engine.ofSettings, compiledIn, Fields.names]
    · simp [Chronicle.next, Engine.perform, Engine.reset, Engine.ofSettings, madeUpIn, Fields.names]
    · simpa [Chronicle.next, Engine.perform, Engine.reset, Engine.ofSettings] using hcompilations
  · have hadvances := Engine.advances chronicle.engine hreset
    rw [next_of_ne_reset chronicle hreset]
    refine ⟨hadvances.plans.sorted h.plansSorted, hadvances.types.sorted h.typesSorted, ?_, ?_, ?_⟩
    · intro name
      rw [hadvances.plans.mem_names_iff, h.plans, mem_compiledIn_append]
    · intro name
      rw [hadvances.types.mem_names_iff, h.types, mem_madeUpIn_append]
    · have hcount := hadvances.compilations
      have hbefore := h.compilations
      simp only
      omega

/-! ## Whole histories -/

theorem ofHistory_append_singleton (settings : Settings) (history : List Operation)
    (operation : Operation) :
    ofHistory settings (history ++ [operation]) = (ofHistory settings history).next operation := by
  simp [ofHistory]

theorem next_engine (chronicle : Chronicle) (operation : Operation) :
    (chronicle.next operation).engine = (chronicle.engine.perform operation).2 := by
  cases operation <;> rfl

theorem ofHistory_engine (settings : Settings) (history : List Operation) :
    (ofHistory settings history).engine = (Engine.ofSettings settings).after history := by
  induction history using List.reverseRecOn with
  | nil => rfl
  | append_singleton history operation ih =>
    rw [ofHistory_append_singleton, next_engine, ih, Engine.after_append_singleton]

theorem inStep_ofHistory (settings : Settings) (history : List Operation) :
    (ofHistory settings history).InStep := by
  induction history using List.reverseRecOn with
  | nil => exact inStep_start settings
  | append_singleton history operation ih =>
    rw [ofHistory_append_singleton]
    exact ih.next operation

end Chronicle

namespace Engine

variable {engine : Engine}

/-! ## Registered plans -/

theorem read_of_rooted (h : engine.Rooted) {name : String} {plan : Plan}
    (hget : engine.plans.get? name = some plan) :
    Text.IsTrimmed name.toList ∧ ∃ intent, Identifier.read name = .query intent ∧
      intent.identifier = plan.identifier ∧ intent.verb = plan.verb := by
  obtain ⟨settings, htrimmed, hplan⟩ := h name plan hget
  obtain ⟨intent, adapter, hread, _, hintent⟩ := intent_of_plan? hplan
  obtain ⟨hidentifier, hverb⟩ := Plan.named_of_ofIntent hintent
  exact ⟨htrimmed, intent, hread, hidentifier.symm, hverb.symm⟩

theorem compile_of_registered {name identifier : String} {plan : Plan}
    (hget : engine.plans.get? name = some plan) (htrims : Text.Trims identifier name) :
    engine.compile identifier = (.ok (some plan), engine) := by
  obtain rfl := htrims.eq_trimmed
  unfold compile
  simp only [hget]

theorem compile_of_noPlan {identifier : String}
    (h : ∀ plan, (engine.compile identifier).1 ≠ .ok (some plan)) :
    (engine.compile identifier).2 = engine := by
  have hcompilation := compilation_compile engine identifier
  generalize engine.compile identifier = compiled at h hcompilation
  cases hcompilation with
  | known _ => rfl
  | anew _ _ => exact absurd rfl (h _)
  | unplanned _ _ _ => rfl

theorem compilations_le_perform (engine : Engine) (operation : Operation) :
    engine.compilations ≤ (engine.perform operation).2.compilations := by
  by_cases hreset : operation = .reset
  · subst hreset
    exact Nat.le_refl _
  · have hadvances := advances engine hreset
    have hcount := hadvances.compilations
    have hlength := hadvances.plans.length_le
    omega

/-- What holds of the plans, the types and the counter of an engine after any history. -/
theorem registry_after_history (settings : Settings) (history : List Operation) :
    let engine := (ofSettings settings).after history
    let chronicle := Chronicle.ofHistory settings history
    (∀ name plan, engine.plans.get? name = some plan →
      Text.IsTrimmed name.toList ∧
      (∃ intent, Identifier.read name = .query intent ∧
        intent.identifier = plan.identifier ∧ intent.verb = plan.verb) ∧
      ∀ identifier change, Text.Trims identifier name →
        (engine.configure change).compile identifier =
          (.ok (some plan), engine.configure change)) ∧
    engine.plans.length = (Chronicle.compiledIn chronicle.epoch).card ∧
    engine.compilations = Chronicle.compilationsIn (chronicle.past ++ [chronicle.epoch]) ∧
    (∀ operation, engine.compilations ≤ (engine.perform operation).2.compilations) ∧
    (∀ identifier, (∀ plan, (engine.compile identifier).1 ≠ .ok (some plan)) →
      (engine.compile identifier).2 = engine) ∧
    engine.types.length = (Chronicle.madeUpIn chronicle.epoch).card := by
  intro engine chronicle
  have hrooted : engine.Rooted := rooted_after settings history
  have hinStep : chronicle.InStep := Chronicle.inStep_ofHistory settings history
  have hengine : chronicle.engine = engine := Chronicle.ofHistory_engine settings history
  refine ⟨?_, ?_, ?_, compilations_le_perform engine, fun _ => compile_of_noPlan, ?_⟩
  · intro name plan hget
    obtain ⟨htrimmed, hread⟩ := read_of_rooted hrooted hget
    refine ⟨htrimmed, hread, fun identifier change htrims => ?_⟩
    have hconfigured : (engine.configure change).plans.get? name = some plan := hget
    exact compile_of_registered hconfigured htrims
  · rw [← hengine]
    exact hinStep.length_plans
  · rw [← hengine]
    exact hinStep.compilations_eq
  · rw [← hengine]
    exact hinStep.length_types

end Engine

end NamedQuery
