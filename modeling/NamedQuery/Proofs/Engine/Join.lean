import NamedQuery.Proofs.Engine.Runs
import NamedQuery.Proofs.Plan.Kind
import NamedQuery.Proofs.Store.Join

/-! # What joins answer

The options of a join may be given by name, or as a map by position, or both (`OptionsOf`); those by
name are a map too, so their names ascend. A join on a store delivers the rows of its table that
meet the conditions and have a partner, in the window of the options (`runStrict_join_delivers`). -/

namespace NamedQuery

open Store (Ask MeetsAll Kept Shows WellFormedWindow ConditionsIn HasPartner Embeds)

/-- The options of a request for a join. An option by name wins over one in a map by position. -/
inductive OptionsOf : Request → Ask → Prop where
  | named {options : Options} : OptionsOf ⟨[], options⟩ options.get?
  | both {positional : Fields Json} {options : Options} :
      OptionsOf ⟨[.object positional], options⟩ fun name =>
        (options.get? name).or (positional.get? name)

namespace Plan

/-! ## The action of a join -/

theorem joinOptions_ok {request : Request} {options : Options} (hsorted : request.options.Sorted)
    (h : joinOptions request = .ok options) : OptionsOf request options.get? ∧ options.Sorted := by
  obtain ⟨values, named⟩ := request
  unfold joinOptions at h
  split at h
  · next hvalues =>
    cases h
    cases hvalues
    exact ⟨.named, hsorted⟩
  · next positional hvalues =>
    cases h
    cases hvalues
    refine ⟨?_, hsorted.complete positional⟩
    have hget : (named.complete positional).get? =
        fun name => (named.get? name).or (Fields.get? positional name) :=
      funext fun name => Fields.get?_complete named positional name
    rw [hget]
    exact .both
  · cases h

def joinSearch (joinTable : String) (options : Options) : Options :=
  options.remaining.insert "with" (.string joinTable)

variable {joinTable : String}

/-- An accepted join has one action, and its conditions are maps. -/
theorem joinActions_of_accepted {request : Request} {actions : List Action}
    (hsorted : request.options.Sorted) (h : joinActions joinTable request = .ok actions) :
    ∃ options : Options, OptionsOf request options.get? ∧ options.Sorted ∧
      (options.get? "eager_load" = none →
        actions = [⟨.join, joinSearch joinTable options⟩] ∧
        (∃ conditions, ConditionsIn (options.asked "conditions") conditions) ∧
        ∃ withConditions, ConditionsIn (options.asked "with_conditions") withConditions) := by
  unfold joinActions at h
  obtain ⟨options, hoptions, h⟩ := bind_eq_ok_iff.1 h
  obtain ⟨hof, hsorted⟩ := joinOptions_ok hsorted hoptions
  refine ⟨options, hof, hsorted, fun hplain => ?_⟩
  rw [Options.splitEagerLoad_of_none hsorted hplain] at h
  obtain ⟨split, hsplit, h⟩ := bind_eq_ok_iff.1 h
  cases hsplit
  obtain ⟨_, hconditions, h⟩ := bind_eq_ok_iff.1 h
  obtain ⟨_, hwith, h⟩ := bind_eq_ok_iff.1 h
  cases h
  have hconditions := Options.conditionsIn_of_requireMap hconditions
  have hwith := Options.conditionsIn_of_requireMap hwith
  rw [Options.get?_remaining hsorted (by decide)] at hconditions hwith
  exact ⟨rfl, hconditions, hwith⟩

variable {options : Options} {conditions withConditions : Fields Json}

theorem joinAsks_joinSearch (hsorted : options.Sorted)
    (hconditions : ConditionsIn (options.asked "conditions") conditions)
    (hwith : ConditionsIn (options.asked "with_conditions") withConditions) :
    Store.JoinAsks joinTable conditions withConditions (joinSearch joinTable options) := by
  have hget : ∀ name, "with" ≠ name → "eager_load" ≠ name →
      (joinSearch joinTable options).get? name = options.asked name := by
    intro name hname heager
    rw [joinSearch, Fields.get?_insert_of_ne _ _ hname, Options.get?_remaining hsorted heager]
  refine ⟨Fields.get?_insert_self .., ?_, ?_⟩
  · rwa [hget "conditions" (by decide) (by decide)]
  · rwa [hget "with_conditions" (by decide) (by decide)]

theorem sameWindow_joinSearch (hsorted : options.Sorted) :
    Store.SameWindow (joinSearch joinTable options).get? options.asked :=
  Options.sameWindow_insert_remaining hsorted _ (by decide)

end Plan

theorem Store.answer_join (store : Store) (options : Options) (selection : Store.Selection) :
    (store.perform ⟨.join, options⟩ selection).answer store =
      (store.join options selection).map (Store.Selection.answer store) :=
  Store.Move.answer_step store selection _

namespace Engine

variable {engine : Engine} {store : Store} {identifier : String} {plan : Plan}

/-- What the joins of an engine answer on a store, for every request without embedding that is
accepted. If the relation is declared, the rows are delivered that meet the conditions and have a
partner; without conditions on partners these are the rows in which the relation embeds something. -/
theorem runStrict_join_delivers (compiled : engine.Compiles store identifier plan)
    {baseTable joinTable : String} (hkind : plan.kind = .join baseTable joinTable)
    {request : Request} (hsorted : request.options.Sorted) {actions : List Action}
    (haccepted : plan.actions request = .ok actions) :
    ∃ ask, OptionsOf request ask ∧ (ask "eager_load" = none → ∃ conditions withConditions,
      ConditionsIn (Options.unlessBlank ask "conditions") conditions ∧
      ConditionsIn (Options.unlessBlank ask "with_conditions") withConditions ∧
      (∀ relation, store.relation? plan.table joinTable = some relation →
        (WellFormedWindow (Options.unlessBlank ask) → ∃ kept shown,
          Kept (fun x => MeetsAll conditions x ∧ HasPartner store relation withConditions x)
            (store.rows plan.table) kept ∧
          Shows (Options.unlessBlank ask) kept shown ∧
          (engine.runStrict identifier request).result =
            .ok (some (.collection ⟨(engine.typeOf plan).1, shown⟩))) ∧
        (¬ WellFormedWindow (Options.unlessBlank ask) → ∃ fault,
          (engine.runStrict identifier request).result = .error fault ∧ fault.kind = .base) ∧
        (Options.unlessBlank ask "with_conditions" = none → ∀ x,
          HasPartner store relation withConditions x ↔
            Embeds store plan.table joinTable relation.kind x)) ∧
      (store.relation? plan.table joinTable = none → ∃ fault,
        (engine.runStrict identifier request).result = .error fault ∧ fault.kind = .base)) := by
  have hactions : Plan.joinActions joinTable request = .ok actions := by
    rw [← haccepted, Plan.actions, hkind]
  obtain ⟨options, hof, hsorted, hplainly⟩ := Plan.joinActions_of_accepted hsorted hactions
  refine ⟨options.get?, hof, fun hplain => ?_⟩
  obtain ⟨rfl, ⟨conditions, hconditions⟩, withConditions, hwith⟩ := hplainly hplain
  have hasks : Store.JoinAsks joinTable conditions withConditions
      (Plan.joinSearch joinTable options) := Plan.joinAsks_joinSearch hsorted hconditions hwith
  have hsame : Store.SameWindow (Plan.joinSearch joinTable options).get? options.asked :=
    Plan.sameWindow_joinSearch hsorted
  rw [compiled.runStrict_of_oneAction haccepted, Store.answer_join]
  refine ⟨conditions, withConditions, hconditions, hwith, fun relation hrelation => ⟨?_, ?_, ?_⟩, ?_⟩
  · -- A proper window.
    intro hwindow
    obtain ⟨intent, _, hplan⟩ := compiled.ofIntent_eq
    obtain ⟨kept, shown, hkept, hshows, hjoin⟩ := Store.join_of_wellFormed (.whole plan.table) hasks
      hrelation (hsame.symm.wellFormed hwindow)
    refine ⟨kept, shown, hkept, hsame.shows hshows, ?_⟩
    rw [hjoin]
    exact reported_many _ (Plan.isCollection_of_join hplan hkind) shown
  · -- A window that is none.
    intro hwindow
    obtain ⟨problem, hjoin, hbackend⟩ := Store.join_of_malformed (.whole plan.table) hasks
      hrelation fun h => hwindow (hsame.wellFormed h)
    rw [hjoin]
    exact reported_backend _ plan hbackend
  · -- No conditions on partners, so that any partner will do.
    intro hnone x
    have hwith : ConditionsIn none withConditions := hnone ▸ hwith
    cases hwith with
    | none _ => exact Store.hasPartner_iff_embeds hrelation
  · -- A relation that is not declared.
    intro hrelation
    rw [Store.join_of_undeclared (.whole plan.table) hasks hrelation]
    exact reported_backend _ plan rfl

def usersJoinedWithPosts : Plan where
  identifier := "UsersJoinedWithPosts"
  verb := .joinedWith
  kind := .join "users" "posts"
  isCollection := true
  target := "users"
  table := "users"

theorem compiles_usersJoinedWithPosts :
    (ofSettings (.on .blog)).Compiles .blog "UsersJoinedWithPosts" usersJoinedWithPosts :=
  compiles_ofSettings rfl rfl

/-- The authors with posts, the last one first. -/
theorem usersJoinedWithPosts_delivers :
    let conditions : Fields Json := [("role", .string "author")]
    let request : Request :=
      ⟨[.object [("conditions", .object conditions)]], [("order", .string "id desc")]⟩
    ∃ ask kept shown, OptionsOf request ask ∧
      Kept (fun x => MeetsAll conditions x ∧
        HasPartner .blog ⟨"posts", "user_id", .hasMany⟩ [] x) (Store.blog.rows "users") kept ∧
      Shows (Options.unlessBlank ask) kept shown ∧
      ((ofSettings (.on .blog)).runStrict "UsersJoinedWithPosts" request).result =
        .ok (some (.collection ⟨((ofSettings (.on .blog)).typeOf usersJoinedWithPosts).1, shown⟩)) := by
  intro conditions request
  have hsorted : request.options.Sorted := List.pairwise_singleton ..
  have haccepted : usersJoinedWithPosts.actions request = .ok _ := rfl
  obtain ⟨ask, hof, hdelivers⟩ :=
    runStrict_join_delivers compiles_usersJoinedWithPosts rfl hsorted haccepted
  dsimp only [request] at hof
  cases hof with
  | both =>
    obtain ⟨found, withConditions, hfound, hwith, hdeclared, _⟩ := hdelivers rfl
    have hwith : ConditionsIn none withConditions := hwith
    cases hwith
    cases hfound with
    | none hsilent => rcases hsilent with h | h <;> cases h
    | map =>
      have hwindow : WellFormedWindow (Options.unlessBlank fun name =>
          (Fields.get? [("order", .string "id desc")] name).or
            (Fields.get? [("conditions", .object conditions)] name)) :=
        ⟨.inr ⟨"id desc", rfl⟩, ⟨none, .none (.inl rfl)⟩, ⟨none, .none (.inl rfl)⟩⟩
      obtain ⟨kept, shown, hkept, hshows, hresult⟩ := (hdeclared _ rfl).1 hwindow
      exact ⟨_, kept, shown, .both, hkept, hshows, hresult⟩

end Engine

end NamedQuery
