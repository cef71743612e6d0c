import NamedQuery.Proofs.Engine.History
import NamedQuery.Proofs.Plan.Actions

/-! # The faults of runs on a store

Which faults a run on a store can end with (`faults_of_runs`). Lookups and joins fetch rows in the
number that their plan is for, so their outputs always have the right shape. A walk goes where its
relations lead, and its answer fits the plan or does not; this is the only way in which a run on a
store comes to an adapter fault. -/

namespace NamedQuery

open Store (AllBelongTo Lacks)

/-- A fault that a lookup or a join on a store can end with. -/
def Plan.MayFail (plan : Plan) (fault : Fault) : Prop :=
  fault.kind ∈ [.base, .recordNotFound, .arguments, .optionsNotPermitted] ∧
    (fault.kind = .recordNotFound → plan.isCollection = false)

/-- The call of a request for a walk is answered. It goes along the relations that the request names,
up to the result. -/
inductive Walks (store : Store) (plan : Plan) (request : Request) : List String → Answer → Prop where
  | intro {anchor resultKey : String} {via : List String} {action : Action} {answer : Answer} :
      plan.kind = .walk anchor resultKey →
      Options.relations (request.options.get? "via") "via" = .ok via →
      plan.actions request = .ok [action] →
      (store.session plan.table).reply [] action = .ok answer →
      Walks store plan request (Plan.chainTo resultKey via) answer

/-! ## Problems as faults -/

/-- A store provides every call. -/
theorem Store.Problem.kind_ne_notImplemented (problem : Store.Problem) :
    problem.kind ≠ .notImplemented := by
  cases problem <;> nofun

theorem Store.kind_fault (problem : Store.Problem) :
    (Store.fault problem).kind ∈ [.base, .recordNotFound, .invalidAncestry] := by
  cases hkind : problem.kind with
  | notImplemented => exact absurd hkind problem.kind_ne_notImplemented
  | notFound => simp [Store.fault_of_notFound hkind, Fault.kind]
  | backend => simp [Store.fault_of_backend hkind, Fault.kind]
  | invalidRelation => simp [Store.fault, Fault.ofFailure, Problem.failure, hkind, Fault.kind]

namespace Plan

variable {plan : Plan}

theorem mayFail_of_lacks {problem : Store.Problem} (h : Lacks plan.isCollection problem) :
    plan.MayFail (Store.fault problem) := by
  rcases h with hbackend | ⟨hone, hnotFound⟩
  · rw [Store.fault_of_backend hbackend]
    exact ⟨by simp [Fault.kind], nofun⟩
  · rw [Store.fault_of_notFound hnotFound]
    exact ⟨by simp [Fault.kind], fun _ => hone⟩

theorem mayFail_of_refused {fault : Fault}
    (h : fault.kind ∈ [Fault.Kind.arguments, .optionsNotPermitted]) : plan.MayFail fault := by
  refine ⟨List.mem_of_mem_tail (List.mem_of_mem_tail h), fun hkind => ?_⟩
  rw [hkind] at h
  exact absurd h (by decide)

/-! ## Runs of plans -/

/-- A lookup or a join answers rows in the number that its plan is for. -/
theorem yields_run (store : Store) (hserves : Serves plan.verb plan.kind plan.isCollection)
    (hverb : plan.verb ≠ .fromAnchor) (request : Request) :
    Yields (fun answer => answer.isMany = plan.isCollection) plan.MayFail
      (plan.run store.adapter request).result := by
  have hactions := yields_actions hserves hverb request
  cases hrequest : plan.actions request with
  | error fault =>
    rw [hrequest] at hactions
    rw [run_result_of_refused hrequest]
    exact .error (mayFail_of_refused hactions.of_error)
  | ok actions =>
    rw [hrequest] at hactions
    have hfetching : Fetching plan.isCollection actions := hactions.of_ok
    -- With no action there would be no answer to speak of.
    have hsome : actions ≠ [] := by
      rintro rfl
      cases hfetching
    have hselected : Yields _ (Lacks plan.isCollection)
        (store.performEach actions (.whole plan.table)) := Store.yields_performEach hfetching _
    rw [run_result hrequest hsome]
    refine (hselected.map fun last hlast => ?_).mapError fun _ => mayFail_of_lacks
    rw [Store.isMany_answer, hlast]

theorem yields_run_walk (store : Store) {anchor resultKey : String}
    (hkind : plan.kind = .walk anchor resultKey) (request : Request) :
    Yields (fun answer => ∃ names, Walks store plan request names answer)
      (fun fault => fault.kind ∈ [.base, .recordNotFound, .invalidAncestry, .arguments])
      (plan.run store.adapter request).result := by
  have hactions := yields_actions_walk hkind request
  cases hrequest : plan.actions request with
  | error fault =>
    rw [hrequest] at hactions
    have hfault : fault.kind = .arguments := hactions.of_error
    rw [run_result_of_refused hrequest]
    exact .error (by rw [hfault]; decide)
  | ok actions =>
    rw [hrequest] at hactions
    obtain ⟨hvia, _⟩ := hactions.of_ok
    rw [run_result_of_oneAction hrequest]
    cases hanswer : (store.perform _ (.whole plan.table)).answer store with
    | error problem => exact .error (List.mem_append_left [_] (Store.kind_fault problem))
    | ok answer => exact .ok ⟨_, .intro hkind hvia hrequest (Store.reply_nil_ok_iff.2 hanswer)⟩

end Plan

/-! ## Walks -/

section Walks

variable {store : Store} {plan : Plan} {request : Request} {names : List String} {answer : Answer}

/-- A walk that succeeds is the run. -/
theorem Walks.run_result (h : Walks store plan request names answer) :
    (plan.run store.adapter request).result = .ok answer := by
  obtain ⟨_, _, hrequest, hreply⟩ := h
  rw [Plan.run_result_of_oneAction hrequest, Store.reply_nil_ok_iff.1 hreply]
  rfl

/-- A walk ends in one row exactly if all of its relations belong to one. -/
theorem Walks.isMany_iff (h : Walks store plan request names answer) :
    answer.isMany = false ↔ AllBelongTo store plan.table names := by
  obtain ⟨hkind, hvia, hrequest, hreply⟩ := h
  have hactions := Plan.yields_actions_walk hkind request
  rw [hrequest] at hactions
  cases hactions.of_ok with
  | intro hvia' hnames =>
    cases hvia.symm.trans hvia'
    exact Store.isMany_ancestors_iff hnames (Store.reply_nil_ok_iff.1 hreply)

end Walks

namespace Engine

variable {engine : Engine} {store : Store} {identifier : String} {plan : Plan}

/-! ## Outputs -/

theorem yields_output {error : Fault → Prop} (type : EntityType) {answer : Answer}
    (h : answer.isMany = plan.isCollection) :
    Yields (fun output : Output => output.isCollection = plan.isCollection) error
      (output plan type answer) := by
  unfold output
  cases answer <;> rw [← h] <;> exact .ok rfl

theorem output_of_mismatch (type : EntityType) {answer : Answer}
    (h : answer.isMany ≠ plan.isCollection) :
    ∃ fault, output plan type answer = .error fault ∧ fault.kind = .adapter := by
  unfold output
  cases answer with
  | one row =>
    have hmany : plan.isCollection = true := by simpa [Answer.isMany] using h.symm
    rw [hmany]
    exact ⟨_, rfl, rfl⟩
  | many rows =>
    have hone : plan.isCollection = false := by simpa [Answer.isMany] using h.symm
    rw [hone]
    exact ⟨_, rfl, rfl⟩

/-! ## Runs of identifiers -/

/-- A plan to which an identifier compiles serves its verb, also if it was compiled for another
adapter. -/
theorem serves_of_compile (hrooted : engine.Rooted)
    (hplan : (engine.compile identifier).1 = .ok (some plan)) :
    Plan.Serves plan.verb plan.kind plan.isCollection := by
  -- A plan that is found was made with settings that may be gone by now.
  have hmade : ∃ settings name, plan? settings name = .ok (some plan) := by
    have hcompilation := compilation_compile engine identifier
    generalize engine.compile identifier = compiled at hplan hcompilation
    cases hcompilation with
    | known hget =>
      cases hplan
      obtain ⟨settings, _, hmade⟩ := hrooted _ _ hget
      exact ⟨settings, _, hmade⟩
    | anew _ hmade =>
      cases hplan
      exact ⟨_, _, hmade⟩
    | unplanned _ _ hnone => exact absurd hplan (hnone plan)
  obtain ⟨_, _, hmade⟩ := hmade
  obtain ⟨intent, adapter, hread, _, hintent⟩ := intent_of_plan? hmade
  exact Plan.serves_of_read hread hintent

theorem yields_execute (hadapter : engine.settings.adapter = .ok store.adapter)
    (hserves : Plan.Serves plan.verb plan.kind plan.isCollection) (hverb : plan.verb ≠ .fromAnchor)
    (request : Request) :
    Yields (fun output => output.isCollection = plan.isCollection) plan.MayFail
      (engine.execute plan request).result := by
  rw [execute_result hadapter]
  exact (Plan.yields_run store hserves hverb request).bind fun _ hanswer => yields_output _ hanswer

theorem yields_lenient {result : Except Fault Output} {value : Output → Prop}
    (h : Yields value plan.MayFail result) :
    Yields (fun _ => True) (fun fault => fault.kind ∈ [.arguments, .optionsNotPermitted])
      (lenient result) := by
  unfold lenient
  cases h with
  | ok _ => exact .ok trivial
  | @error fault hfault =>
    simp only []
    split
    · exact .ok trivial
    · next hswallowed =>
      refine .error ?_
      have hkind := hfault.1
      simp only [Fault.isSwallowed, Bool.or_eq_true, decide_eq_true_eq, not_or] at hswallowed
      simpa [hswallowed.1, hswallowed.2] using hkind

theorem yields_execute_walk (hadapter : engine.settings.adapter = .ok store.adapter)
    {anchor resultKey : String} (hkind : plan.kind = .walk anchor resultKey) (request : Request) :
    Yields (fun output => output.isCollection = plan.isCollection)
      (fun fault => fault.kind ∈ [.base, .recordNotFound, .invalidAncestry, .arguments, .adapter])
      (engine.execute plan request).result := by
  rw [execute_result hadapter]
  have hrun := (Plan.yields_run_walk store hkind request).imp (fun _ h => h)
    fun _ => List.mem_append_left [.adapter]
  refine hrun.bind fun answer _ => ?_
  by_cases hfits : answer.isMany = plan.isCollection
  · exact yields_output _ hfits
  · obtain ⟨fault, houtput, hfault⟩ := output_of_mismatch (engine.typeOf plan).1 hfits
    rw [houtput]
    exact .error (by rw [hfault]; decide)

/-- A run on a store comes to an adapter fault exactly if a walk succeeds that does not fit. -/
theorem execute_adapter_iff (hadapter : engine.settings.adapter = .ok store.adapter)
    {anchor resultKey : String} (hkind : plan.kind = .walk anchor resultKey) (request : Request) :
    (∃ fault, (engine.execute plan request).result = .error fault ∧ fault.kind = .adapter) ↔
      ∃ names answer, Walks store plan request names answer ∧ answer.isMany ≠ plan.isCollection := by
  rw [execute_result hadapter]
  constructor
  · -- The run itself has no fault of this kind, so it has answered, and the answer was refused.
    rintro ⟨fault, hresult, hfault⟩
    have hrun := Plan.yields_run_walk store hkind request
    generalize (plan.run store.adapter request).result = result at hresult hrun
    cases hrun with
    | error hkinds =>
      cases hresult
      rw [hfault] at hkinds
      exact absurd hkinds (by decide)
    | @ok answer hwalks =>
      obtain ⟨names, hwalks⟩ := hwalks
      refine ⟨names, answer, hwalks, fun hfits => ?_⟩
      have houtput : Yields _ (fun _ => False) (output plan (engine.typeOf plan).1 answer) :=
        yields_output _ hfits
      rw [show output plan (engine.typeOf plan).1 answer = .error fault from hresult] at houtput
      exact houtput.of_error
  · rintro ⟨names, answer, hwalks, hmismatch⟩
    rw [hwalks.run_result]
    exact output_of_mismatch _ hmismatch

/-- Which faults the runs of an identifier can end with that compiles, after any history of the engine.
A lookup or a join gives an output of the shape of its plan or fails in one of the listed ways, and
a lenient run fails because of what it is given. A walk may also find no relation of a name, and it
comes to an adapter fault exactly if it succeeds and has not the shape of its plan; it has the shape
of one row exactly if all of its relations belong to one. -/
theorem faults_of_runs {settings : Settings} {history : List Operation} {store : Store}
    {identifier : String} {plan : Plan}
    (hadapter : ((ofSettings settings).after history).settings.adapter = .ok store.adapter)
    (hplan : (((ofSettings settings).after history).compile identifier).1 = .ok (some plan))
    (request : Request) :
    let engine := (ofSettings settings).after history
    let strict := (engine.runStrict identifier request).result
    let hasShape (output? : Option Output) : Prop :=
      output?.map Output.isCollection = some plan.isCollection
    (plan.verb ≠ .fromAnchor →
      Yields hasShape plan.MayFail strict ∧
      Yields (fun _ => True) (fun fault => fault.kind ∈ [.arguments, .optionsNotPermitted])
        (engine.run identifier request).result) ∧
    (plan.verb = .fromAnchor →
      Yields hasShape (fun fault => fault.kind ∈
        [.base, .recordNotFound, .invalidAncestry, .arguments, .adapter]) strict ∧
      ((∃ fault, strict = .error fault ∧ fault.kind = .adapter) ↔
        ∃ names answer, Walks store plan request names answer ∧
          answer.isMany ≠ plan.isCollection) ∧
      ∀ names answer, Walks store plan request names answer →
        (answer.isMany = false ↔ AllBelongTo store plan.table names)) := by
  intro engine strict hasShape
  have hserves : Plan.Serves plan.verb plan.kind plan.isCollection :=
    serves_of_compile (rooted_after settings history) hplan
  -- The plan is executed by the engine after compiling, whose adapter is still the same.
  have hcompiled : (engine.compile identifier).2.settings.adapter = .ok store.adapter := by
    rw [compile_settings]
    exact hadapter
  have hstrict : strict = ((engine.compile identifier).2.execute plan request).result.map some :=
    runStrict_of_compile hplan request
  rw [hstrict]
  refine ⟨fun hverb => ?_, fun hverb => ?_⟩
  · have hrun := yields_execute hcompiled hserves hverb request
    have hlenient : (engine.run identifier request).result = _ := run_of_compile hplan request
    rw [hlenient]
    exact ⟨hrun.map fun _ => congrArg some, (yields_lenient hrun).map fun _ _ => trivial⟩
  · obtain ⟨anchor, resultKey, hkind⟩ := hserves.walk_of_fromAnchor hverb
    have hadapterFault := execute_adapter_iff hcompiled hkind request
    refine ⟨?_, ?_, fun _ _ => Walks.isMany_iff⟩
    · exact (yields_execute_walk hcompiled hkind request).map fun _ => congrArg some
    · simpa only [map_eq_error_iff] using hadapterFault

/-- The blog with a relation that goes by the name of many, but leads to one. -/
def postsOfComments : Store :=
  Store.blog.relate "comments" "posts" ⟨"posts", "post_id", .belongsTo⟩

def postsFromComment : Plan where
  identifier := "PostsFromComment"
  verb := .fromAnchor
  kind := .walk "comment" "posts"
  isCollection := true
  target := "posts"
  table := "comments"

theorem compiles_postsFromComment :
    (ofSettings (.on postsOfComments)).Compiles postsOfComments "PostsFromComment"
      postsFromComment :=
  compiles_ofSettings rfl rfl

/-- A comment has one post, but the query is for posts. -/
theorem postsFromComment_faults :
    ∃ fault, ((ofSettings (.on postsOfComments)).runStrict "PostsFromComment"
        ⟨[.number (.integer 20)], []⟩).result = .error fault ∧ fault.kind = .adapter := by
  have hadapter : ((ofSettings (.on postsOfComments)).after []).settings.adapter =
      .ok postsOfComments.adapter := rfl
  have hplan : (((ofSettings (.on postsOfComments)).after []).compile "PostsFromComment").1 =
      .ok (some postsFromComment) := by
    obtain ⟨after, hcompile, _⟩ := compiles_postsFromComment.compile_eq
    rw [Engine.after, List.foldl_nil, hcompile]
  have hvia : Options.relations (Fields.get? [] "via") "via" = .ok [] := rfl
  have hactions : postsFromComment.actions ⟨[.number (.integer 20)], []⟩ =
      .ok [⟨.ancestors, [("id", .number (.integer 20)), ("result_key", .string "posts"),
        ("via", .array [.string "posts"])]⟩] := rfl
  have hreply : (postsOfComments.session "comments").reply []
      ⟨.ancestors, [("id", .number (.integer 20)), ("result_key", .string "posts"),
        ("via", .array [.string "posts"])]⟩ =
      .ok (.one [("id", .number (.integer 11)), ("user_id", .number (.integer 1))]) := rfl
  obtain ⟨_, hmismatch, _⟩ :=
    (faults_of_runs hadapter hplan ⟨[.number (.integer 20)], []⟩).2 rfl
  exact hmismatch.2 ⟨_, _, .intro rfl hvia hactions hreply, Bool.false_ne_true⟩

end Engine

end NamedQuery
