import NamedQuery.Proofs.Plan.Actions

/-! # The course of a run

A run is refused before it begins, or it opens one session and makes the calls of its actions, in their
order and up to the first one that fails. `Course` lists the ways that this can go, whatever the adapter
answers to each call, with all that is done on each of them and what the result is; a run goes one of
these ways and no other (`run_iff_course`). -/

namespace NamedQuery

/-! ## Failures as faults -/

/-- The fault that a failure of an adapter comes out as. Invalid relations and what is not provided are
understood from every adapter, other failures only from one that expects them; what is not understood
comes out as it is. -/
inductive Fault.ReportsAs (expected : List Adapter.FailureKind) : Adapter.Failure → Fault → Prop where
  | invalidRelation {message : String} :
      ReportsAs expected ⟨.invalidRelation, message⟩ (.invalidAncestry message)
  | notImplemented {message : String} :
      ReportsAs expected ⟨.notImplemented, message⟩ (.notImplemented message)
  | notFound {message : String} : .notFound ∈ expected →
      ReportsAs expected ⟨.notFound, message⟩ (.notFound message)
  | backend {message : String} : .backend ∈ expected →
      ReportsAs expected ⟨.backend, message⟩ (.failed message)
  | unexpected {failure : Adapter.Failure} : failure.kind ∉ expected →
      failure.kind ≠ .invalidRelation → failure.kind ≠ .notImplemented →
      ReportsAs expected failure (.adapter failure)

theorem Fault.reportsAs_ofFailure (expected : List Adapter.FailureKind) (failure : Adapter.Failure) :
    ReportsAs expected failure (ofFailure expected failure) := by
  obtain ⟨kind, message⟩ := failure
  cases kind with
  | invalidRelation => exact .invalidRelation
  | notImplemented => exact .notImplemented
  | notFound =>
    simp only [ofFailure]
    split
    · next hexpected => exact .notFound (List.contains_iff_mem.1 hexpected)
    · next hexpected => exact .unexpected (fun h => hexpected (List.contains_iff_mem.2 h)) nofun nofun
  | backend =>
    simp only [ofFailure]
    split
    · next hexpected => exact .backend (List.contains_iff_mem.1 hexpected)
    · next hexpected => exact .unexpected (fun h => hexpected (List.contains_iff_mem.2 h)) nofun nofun

theorem Fault.ReportsAs.eq_ofFailure {expected : List Adapter.FailureKind} {failure : Adapter.Failure}
    {fault : Fault} (h : ReportsAs expected failure fault) : fault = ofFailure expected failure := by
  cases h with
  | invalidRelation => rfl
  | notImplemented => rfl
  | notFound hexpected => simp [ofFailure, hexpected]
  | backend hexpected => simp [ofFailure, hexpected]
  | unexpected hexpected hrelation hprovided =>
    obtain ⟨kind, message⟩ := failure
    cases kind with
    | invalidRelation => exact absurd rfl hrelation
    | notImplemented => exact absurd rfl hprovided
    | notFound | backend => simp_all [ofFailure]

/-! ## Series of calls -/

namespace Session

/-- A session answers each of a series of calls, which are made one after another. -/
inductive Answers (session : Session) : List Action → List Action → Prop where
  | nil {earlier : List Action} : Answers session earlier []
  | cons {earlier rest : List Action} {action : Action} {answer : Answer} :
      session.reply earlier action = .ok answer → Answers session (earlier ++ [action]) rest →
      Answers session earlier (action :: rest)

variable {session : Session} {earlier before after : List Action} {action : Action}

/-- Calls that are answered are made, and then it goes on with the calls behind them. -/
theorem performAll_append (h : session.Answers earlier before) (last? : Option Answer) :
    session.performAll earlier last? (before ++ action :: after) =
      ((session.performAll (earlier ++ before) none (action :: after)).1,
        before ++ (session.performAll (earlier ++ before) none (action :: after)).2) := by
  -- Each answer becomes the last one, and with a call still to come it does not matter which one that is.
  induction h generalizing last? with
  | nil =>
    rw [List.append_nil]
    rfl
  | cons hreply _ ih =>
    rw [List.cons_append, performAll, hreply]
    simp only [ih, List.append_assoc, List.cons_append, List.nil_append]

theorem performAll_of_answer {answer : Answer} (h : session.Answers earlier before)
    (hreply : session.reply (earlier ++ before) action = .ok answer) (last? : Option Answer) :
    session.performAll earlier last? (before ++ [action]) =
      (.ok (some answer), before ++ [action]) := by
  rw [performAll_append h, performAll, hreply]
  rfl

theorem performAll_of_failure {failure : Adapter.Failure} (h : session.Answers earlier before)
    (hreply : session.reply (earlier ++ before) action = .error failure) (last? : Option Answer) :
    session.performAll earlier last? (before ++ action :: after) =
      (.error failure, before ++ [action]) := by
  rw [performAll_append h, performAll, hreply]

/-- Calls are all answered, or there is a first one that fails. -/
theorem answers_or_fails (session : Session) (earlier actions : List Action) :
    session.Answers earlier actions ∨
      ∃ before action after failure, actions = before ++ action :: after ∧
        session.Answers earlier before ∧ session.reply (earlier ++ before) action = .error failure := by
  induction actions generalizing earlier with
  | nil => exact .inl .nil
  | cons action rest ih =>
    cases hreply : session.reply earlier action with
    | error failure => exact .inr ⟨[], action, rest, failure, rfl, .nil, by rwa [List.append_nil]⟩
    | ok answer =>
      rcases ih (earlier ++ [action]) with hrest | ⟨before, failing, after, failure, rfl, hbefore, hfails⟩
      · exact .inl (.cons hreply hrest)
      · rw [List.append_assoc] at hfails
        exact .inr ⟨action :: before, failing, after, failure, rfl, .cons hreply hbefore, hfails⟩

theorem Answers.of_append_singleton (h : session.Answers earlier (before ++ [action])) :
    session.Answers earlier before ∧ ∃ answer, session.reply (earlier ++ before) action = .ok answer := by
  induction before generalizing earlier with
  | nil =>
    cases h with
    | cons hreply _ => exact ⟨.nil, _, by rwa [List.append_nil]⟩
  | cons first before ih =>
    cases h with
    | cons hreply hrest =>
      obtain ⟨hbefore, hlast⟩ := ih hrest
      rw [List.append_assoc] at hlast
      exact ⟨.cons hreply hbefore, hlast⟩

end Session

/-! ## Runs -/

/-- A request never comes to no actions at all. -/
theorem Plan.actions_ne_nil (plan : Plan) (request : Request) : plan.actions request ≠ .ok [] := by
  intro h
  unfold actions at h
  -- The actions of every kind of plan begin with a call that fetches.
  cases hkind : plan.kind with
  | lookup field parameterless =>
    rw [hkind] at h
    cases parameterless with
    | true =>
      simp only [parameterlessActions] at h
      split at h <;> cases h
    | false =>
      have hyields := yields_lookupActions field plan.isCollection request
      rw [show lookupActions field plan.isCollection request = .ok [] from h] at hyields
      cases hyields.of_ok
  | walk anchor resultKey =>
    rw [hkind] at h
    have hyields := yields_walkActions resultKey request
    rw [show walkActions resultKey request = .ok [] from h] at hyields
    cases hyields.of_ok
  | join baseTable joinTable =>
    rw [hkind] at h
    have hyields := yields_joinActions joinTable request
    rw [show joinActions joinTable request = .ok [] from h] at hyields
    cases hyields.of_ok

section Course

variable (plan : Plan) (adapter : Adapter) (request : Request)

/-- The ways that a run of a plan can go, each with its result and with what is done. -/
inductive Course : Except Fault Answer → List Event → Prop where
  /-- The request does not fit the plan. -/
  | refused {fault : Fault} : plan.actions request = .error fault → Course (.error fault) []
  /-- The adapter does not say which failures it expects. -/
  | unready {actions : List Action} {failure : Adapter.Failure} {fault : Fault} :
      plan.actions request = .ok actions → adapter.expected = .error failure →
      Fault.ReportsAs [] failure fault → Course (.error fault) []
  /-- A call fails, after those before it have been answered. -/
  | failed {before after : List Action} {action : Action} {expected : List Adapter.FailureKind}
      {failure : Adapter.Failure} {fault : Fault} :
      plan.actions request = .ok (before ++ action :: after) → adapter.expected = .ok expected →
      (adapter.session plan.table).Answers [] before →
      (adapter.session plan.table).reply before action = .error failure →
      Fault.ReportsAs expected failure fault →
      Course (.error fault) (.opened plan.table :: (before ++ [action]).map .called)
  /-- The answer to the last call is the result: it is a set, or the plan is for one. -/
  | answered {before : List Action} {last : Action} {expected : List Adapter.FailureKind}
      {answer : Answer} :
      plan.actions request = .ok (before ++ [last]) → adapter.expected = .ok expected →
      (adapter.session plan.table).Answers [] before →
      (adapter.session plan.table).reply before last = .ok answer →
      (plan.isCollection = true ∨ ∃ rows, answer = .many rows) →
      Course (.ok answer) (.opened plan.table :: (before ++ [last]).map .called)
  /-- One record is read back. -/
  | readBack {before : List Action} {last : Action} {expected : List Adapter.FailureKind}
      {row attributes : Row} :
      plan.actions request = .ok (before ++ [last]) → adapter.expected = .ok expected →
      (adapter.session plan.table).Answers [] before →
      (adapter.session plan.table).reply before last = .ok (.one row) →
      plan.isCollection = false →
      (adapter.session plan.table).attributes (before ++ [last]) = .ok attributes →
      Course (.ok (.one attributes))
        (.opened plan.table :: (before ++ [last]).map .called ++ [.readBack])
  /-- One record cannot be read back. -/
  | unreadable {before : List Action} {last : Action} {expected : List Adapter.FailureKind}
      {row : Row} {failure : Adapter.Failure} {fault : Fault} :
      plan.actions request = .ok (before ++ [last]) → adapter.expected = .ok expected →
      (adapter.session plan.table).Answers [] before →
      (adapter.session plan.table).reply before last = .ok (.one row) →
      plan.isCollection = false →
      (adapter.session plan.table).attributes (before ++ [last]) = .error failure →
      Fault.ReportsAs expected failure fault →
      Course (.error fault) (.opened plan.table :: (before ++ [last]).map .called ++ [.readBack])

variable {plan adapter request}

theorem Plan.run_of_ready {actions : List Action} {expected : List Adapter.FailureKind}
    (hactions : plan.actions request = .ok actions) (hexpected : adapter.expected = .ok expected) :
    plan.run adapter request =
      Run.outcome ⟨plan, actions, expected, adapter.session plan.table⟩ := by
  rw [Plan.run, Run.ready, hactions, hexpected]
  rfl

/-- A course is the run. -/
theorem Course.run_eq {result : Except Fault Answer} {events : List Event}
    (h : Course plan adapter request result events) : plan.run adapter request = ⟨result, events⟩ := by
  cases h with
  | refused hactions =>
    rw [Plan.run, Run.ready, hactions]
    rfl
  | unready hactions hexpected hreports =>
    rw [Plan.run, Run.ready, hactions, hexpected, hreports.eq_ofFailure]
    rfl
  | failed hactions hexpected hbefore hreply hreports =>
    rw [Plan.run_of_ready hactions hexpected, Run.outcome, hreports.eq_ofFailure]
    simp only [Session.performAll_of_failure hbefore hreply]
  | @answered before last expected answer hactions hexpected hbefore hreply hset =>
    rw [Plan.run_of_ready hactions hexpected, Run.outcome]
    simp only [Session.performAll_of_answer hbefore hreply]
    cases answer with
    | many rows => rfl
    | one row =>
      -- A plan for one would have read it back.
      have hmany : plan.isCollection = true := by simpa using hset
      simp only [hmany, if_true]
  | readBack hactions hexpected hbefore hreply hone hattributes =>
    rw [Plan.run_of_ready hactions hexpected, Run.outcome]
    simp only [Session.performAll_of_answer hbefore hreply, hone, hattributes]
    rfl
  | unreadable hactions hexpected hbefore hreply hone hattributes hreports =>
    rw [Plan.run_of_ready hactions hexpected, Run.outcome, hreports.eq_ofFailure]
    simp only [Session.performAll_of_answer hbefore hreply, hone, hattributes]
    rfl

/-- Every run has a course. -/
theorem exists_course (plan : Plan) (adapter : Adapter) (request : Request) :
    ∃ result events, Course plan adapter request result events := by
  cases hactions : plan.actions request with
  | error fault => exact ⟨_, _, .refused hactions⟩
  | ok actions =>
    cases hexpected : adapter.expected with
    | error failure => exact ⟨_, _, .unready hactions hexpected (Fault.reportsAs_ofFailure _ _)⟩
    | ok expected =>
      rcases (adapter.session plan.table).answers_or_fails [] actions with
        hanswers | ⟨before, action, after, failure, rfl, hbefore, hreply⟩
      · -- All calls are answered, and there is a last one.
        rcases actions.eq_nil_or_concat with rfl | ⟨before, last, rfl⟩
        · exact absurd hactions (plan.actions_ne_nil request)
        · rw [List.concat_eq_append] at hactions hanswers
          obtain ⟨hbefore, answer, hreply⟩ := hanswers.of_append_singleton
          cases answer with
          | many rows => exact ⟨_, _, .answered hactions hexpected hbefore hreply (.inr ⟨rows, rfl⟩)⟩
          | one row =>
            cases hcollection : plan.isCollection with
            | true => exact ⟨_, _, .answered hactions hexpected hbefore hreply (.inl hcollection)⟩
            | false =>
              cases hattributes : (adapter.session plan.table).attributes (before ++ [last]) with
              | ok attributes =>
                exact ⟨_, _, .readBack hactions hexpected hbefore hreply hcollection hattributes⟩
              | error failure =>
                exact ⟨_, _, .unreadable hactions hexpected hbefore hreply hcollection hattributes
                  (Fault.reportsAs_ofFailure _ _)⟩
      · exact ⟨_, _, .failed hactions hexpected hbefore hreply (Fault.reportsAs_ofFailure _ _)⟩

/-- A run of a plan, with any adapter and any request, goes one of the ways of `Course`, and what it does
and what it results in is what is said there. A failure that an adapter does not expect, but for an invalid
relation and for what is not provided, comes out with its kind and its message. -/
theorem run_iff_course (plan : Plan) (adapter : Adapter) (request : Request)
    (result : Except Fault Answer) (events : List Event) :
    plan.run adapter request = ⟨result, events⟩ ↔ Course plan adapter request result events := by
  refine ⟨fun h => ?_, Course.run_eq⟩
  obtain ⟨result', events', hcourse⟩ := exists_course plan adapter request
  cases hcourse.run_eq.symm.trans h
  exact hcourse

end Course

end NamedQuery
