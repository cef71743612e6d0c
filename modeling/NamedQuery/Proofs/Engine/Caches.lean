import NamedQuery.Proofs.Engine.History
import NamedQuery.Proofs.Store.Conditions

/-! # Caches are not seen

An engine keeps plans and types, and both are what it would come to anew with its settings
(`UpToDate`). Operations that leave the adapters alone keep this (`UpToDate.perform`), and engines
that are up to date and have the same settings answer alike (`UpToDate.reply_eq`), whatever they
keep. So the answer after a history is that of a new engine (`reply_after_history`). -/

namespace NamedQuery

namespace Operation

/-- An operation leaves the adapters as they are, and the choice of one. -/
def KeepsAdapters : Operation → Prop
  | registerAdapter _ _ => False
  | useAdapter _ => False
  | reset => False
  | _ => True

def registration? : Operation → Option (String × EntityType)
  | registerEntity key type => some (key, type)
  | _ => none

end Operation

/-- Settings with some more types registered, one after another. -/
def Settings.withEntities (settings : Settings) (registrations : List (String × EntityType)) :
    Settings :=
  { settings with entityTypes := settings.entityTypes.insertAll registrations }

theorem Operation.adapter_settle {operation : Operation} (h : operation.KeepsAdapters)
    (settings : Settings) : (operation.settle settings).adapter = settings.adapter := by
  cases operation <;> first | rfl | cases h

theorem Operation.settle_of_keepsAdapters {operation : Operation} (h : operation.KeepsAdapters)
    (settings : Settings) :
    operation.settle settings = settings.withEntities operation.registration?.toList := by
  cases operation <;> first | rfl | cases h

namespace Engine

theorem plan?_congr {settings settings' : Settings} (h : settings.adapter = settings'.adapter)
    (identifier : String) : plan? settings identifier = plan? settings' identifier := by
  simp only [plan?, h]

/-- What an engine keeps is what it would come to anew. -/
structure UpToDate (engine : Engine) : Prop where
  plans : ∀ name plan, engine.plans.get? name = some plan → ProperPlan engine.settings name plan
  types : ∀ name type, engine.types.get? name = some type → ProperType name type

theorem upToDate_ofSettings (settings : Settings) : (ofSettings settings).UpToDate :=
  ⟨nofun, nofun⟩

variable {engine other : Engine}

theorem UpToDate.perform (h : engine.UpToDate) (operation : Operation)
    (hkeep : operation.KeepsAdapters) : (engine.perform operation).2.UpToDate := by
  have hreset : operation ≠ .reset := by
    rintro rfl
    exact hkeep
  have hadvances := advances engine hreset
  have hproper : ∀ name plan, ProperPlan engine.settings name plan →
      ProperPlan (engine.perform operation).2.settings name plan := by
    rintro name plan ⟨htrimmed, hplan⟩
    have hadapter : (engine.perform operation).2.settings.adapter = engine.settings.adapter := by
      rw [hadvances.settings, Operation.adapter_settle hkeep]
    exact ⟨htrimmed, by rw [plan?_congr hadapter, hplan]⟩
  constructor
  · have hplans := fun name plan hget => hproper name plan (h.plans name plan hget)
    exact hadvances.plans.get? hplans hproper
  · exact hadvances.types.get? h.types fun _ _ hnew => hnew

/-! ## Answers -/

theorem UpToDate.compile_result (h : engine.UpToDate) (identifier : String) :
    (engine.compile identifier).1 = plan? engine.settings identifier := by
  have hcompilation := compilation_compile engine identifier
  generalize engine.compile identifier = compiled at hcompilation
  cases hcompilation with
  | known hget =>
    have hplan := (h.plans _ _ hget).2
    rw [plan?_trimmed] at hplan
    exact hplan.symm
  | anew _ hplan => exact hplan.symm
  | unplanned _ hplan _ => exact hplan.symm

theorem UpToDate.type_eq (h : engine.UpToDate) (plan : Plan) :
    (engine.typeOf plan).1 =
      (engine.settings.entityType? plan.entityKey).getD (.plain plan.typeName) := by
  have htyping := typing_typeOf engine plan
  generalize engine.typeOf plan = typed at htyping
  cases htyping with
  | registered hregistered => rw [hregistered, Option.getD_some]
  | known hregistered hknown =>
    rw [hregistered, Option.getD_none]
    exact h.types _ _ hknown
  | anew hregistered _ => rw [hregistered, Option.getD_none]

theorem UpToDate.execute_result_eq (h : engine.UpToDate) (hother : other.UpToDate)
    (hsettings : engine.settings = other.settings) (plan : Plan) (request : Request) :
    (engine.execute plan request).result = (other.execute plan request).result := by
  have htype : (engine.typeOf plan).1 = (other.typeOf plan).1 := by
    rw [h.type_eq, hother.type_eq, hsettings]
  unfold execute
  rw [hsettings]
  cases other.settings.adapter with
  | error fault => rfl
  | ok adapter => simp only [htype]

/-- Engines that go on alike with a plan go on alike with an identifier. -/
theorem UpToDate.withPlan_result_eq {α : Type} (h : engine.UpToDate) (hother : other.UpToDate)
    (hsettings : engine.settings = other.settings) (identifier : String)
    {go : Engine → Plan → Step α}
    (hgo : ∀ {first second : Engine}, first.UpToDate → second.UpToDate →
      first.settings = second.settings → ∀ plan, (go first plan).result = (go second plan).result) :
    (engine.withPlan identifier go).result = (other.withPlan identifier go).result := by
  have hcompiled : (engine.compile identifier).1 = (other.compile identifier).1 := by
    rw [h.compile_result, hother.compile_result, hsettings]
  -- Compiling leaves both engines up to date, so they may go on from there.
  have hgone := hgo (h.perform (.compile identifier) trivial)
    (hother.perform (.compile identifier) trivial) (by simp [Engine.perform, hsettings])
  simp only [Engine.perform] at hgone
  rw [withPlan_result, withPlan_result, hcompiled]
  simp only [hgone]

/-- What an answer depends on is the settings, not what is kept. -/
theorem UpToDate.reply_eq (h : engine.UpToDate) (hother : other.UpToDate)
    (hsettings : engine.settings = other.settings) (operation : Operation) :
    (engine.perform operation).1 = (other.perform operation).1 := by
  cases operation with
  | compile identifier =>
    show Reply.plan _ = Reply.plan _
    rw [h.compile_result, hother.compile_result, hsettings]
  | actions identifier request =>
    exact congrArg Reply.actions (h.withPlan_result_eq hother hsettings identifier fun _ _ _ _ => rfl)
  | run identifier request =>
    refine congrArg Reply.run (h.withPlan_result_eq hother hsettings identifier ?_)
    intro first second hfirst hsecond heq plan
    simp only [hfirst.execute_result_eq hsecond heq]
  | runStrict identifier request =>
    refine congrArg Reply.runStrict (h.withPlan_result_eq hother hsettings identifier ?_)
    intro first second hfirst hsecond heq plan
    exact hfirst.execute_result_eq hsecond heq plan request
  | execute plan request =>
    exact congrArg Reply.executed (h.execute_result_eq hother hsettings plan request)
  | registerAdapter _ _ | useAdapter _ | registerEntity _ _ | reset => rfl

/-! ## Histories -/

theorem settings_after (settings : Settings) {history : List Operation}
    (hkeep : ∀ operation ∈ history, operation.KeepsAdapters) :
    ((ofSettings settings).after history).settings =
      settings.withEntities (history.filterMap Operation.registration?) := by
  -- For every engine, as the induction goes on from the one that the first operation leaves.
  suffices ∀ engine : Engine, (engine.after history).settings =
      engine.settings.withEntities (history.filterMap Operation.registration?) from this _
  induction history with
  | nil => exact fun _ => rfl
  | cons operation rest ih =>
    intro engine
    have hfirst : operation.KeepsAdapters := hkeep operation (List.mem_cons_self ..)
    have hreset : operation ≠ .reset := by
      rintro rfl
      exact hfirst
    show (((engine.perform operation).2.after rest)).settings = _
    rw [ih fun other hother => hkeep other (List.mem_cons_of_mem _ hother),
      (advances engine hreset).settings, Operation.settle_of_keepsAdapters hfirst]
    cases hregistration : operation.registration? with
    | none => simp [hregistration, Settings.withEntities, Fields.insertAll]
    | some registration => simp [hregistration, Settings.withEntities, Fields.insertAll]

/-- After any history that leaves the adapters alone, an operation is answered as by a new engine
with the same adapters and the registrations made so far. -/
theorem reply_after_history {settings : Settings} {history : List Operation}
    (hkeep : ∀ operation ∈ history, operation.KeepsAdapters) (operation : Operation) :
    (((ofSettings settings).after history).perform operation).1 =
      ((ofSettings (settings.withEntities (history.filterMap Operation.registration?))).perform
        operation).1 := by
  have hafter : ((ofSettings settings).after history).UpToDate := by
    refine after_induction (upToDate_ofSettings settings) ?_
    intro engine operation hoperation hengine
    exact hengine.perform operation (hkeep operation hoperation)
  exact hafter.reply_eq (upToDate_ofSettings _) (settings_after settings hkeep) operation

/-- A type that is registered after the conventional one was made up, and a plan that was compiled
before, after an identifier that has none. -/
theorem reply_after_registration :
    let author : Request := ⟨[.string "author"], []⟩
    let history : List Operation := [.runStrict " UsersByRole" author, .compile "UserByIdByRole",
      .registerEntity "users_by_role" (.plain "Authors")]
    (∀ operation ∈ history, operation.KeepsAdapters) ∧
      (((ofSettings (.on .blog)).after history).perform (.runStrict "UsersByRole " author)).1 =
        ((ofSettings ((Settings.on .blog).withEntities [("users_by_role", .plain "Authors")])).perform
          (.runStrict "UsersByRole " author)).1 := by
  intro author history
  have hkeep : ∀ operation ∈ history, operation.KeepsAdapters := by
    simp [history, Operation.KeepsAdapters]
  exact ⟨hkeep, reply_after_history hkeep _⟩

end Engine

end NamedQuery
