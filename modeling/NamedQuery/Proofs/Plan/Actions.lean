import NamedQuery.Proofs.Plan.Kind
import NamedQuery.Proofs.Store.Shape

/-! # What requests come to

A request comes to actions, or its arguments are refused. A lookup and a join come to a call that
fetches as many rows as the plan returns, and perhaps one that embeds others in them
(`yields_actions`). A walk comes to one call along the relations to its result
(`yields_actions_walk`). -/

namespace NamedQuery

def Fault.OnArguments (fault : Fault) : Prop :=
  fault.kind = .arguments

namespace Options

theorem yields_relations (value : Option Json) (option : String) :
    Yields (fun _ => True) Fault.OnArguments (relations value option) := by
  unfold relations
  split
  · exact .ok trivial
  · exact .ok trivial
  · exact .ok trivial
  · split
    · exact .ok trivial
    · exact .error rfl
  · exact .error rfl

theorem yields_requireMap (options : Options) (option : String) :
    Yields (fun _ => True) Fault.OnArguments (requireMap options option) := by
  unfold requireMap
  split
  · exact .ok trivial
  · exact .ok trivial
  · exact .error rfl

/-- Apart from the options there are only calls that embed. -/
theorem yields_splitEagerLoad (options : Options) :
    Yields (fun split => ∀ action ∈ split.2, action.name = .eagerLoad) Fault.OnArguments
      (splitEagerLoad options) := by
  refine (yields_relations ((compact options).get? "eager_load") "eager_load").bind fun names _ => ?_
  refine .ok fun action haction => ?_
  by_cases hnames : names.isEmpty
  · simp [hnames] at haction
  · simp only [hnames, Bool.false_eq_true, if_false, List.mem_singleton] at haction
    rw [haction]

end Options

theorem Request.yields_onlyValue (otherwise : Nat → ArgumentProblem) (request : Request) :
    Yields (fun _ => True) Fault.OnArguments (request.onlyValue otherwise) := by
  unfold onlyValue
  split
  · exact .ok trivial
  · exact .error rfl

namespace Plan

/-! ## Lookups and joins -/

theorem yields_conditionsOf (field : Option String) (value : Json) :
    Yields (fun _ => True) Fault.OnArguments (conditionsOf field value) := by
  unfold conditionsOf
  split
  · exact .ok trivial
  · split
    · exact .ok trivial
    · exact .error rfl

theorem yields_lookupActions (field : Option String) (many : Bool) (request : Request) :
    Yields (Fetching many) Fault.OnArguments (lookupActions field many request) := by
  refine (request.yields_onlyValue _).bind fun value _ => ?_
  refine (yields_conditionsOf field value).bind fun conditions _ => ?_
  refine (Options.yields_splitEagerLoad request.options).bind fun ⟨options, embedding⟩ hembedding => ?_
  refine (Options.yields_requireMap options "conditions").bind fun _ _ => ?_
  split
  · next hstraight =>
    have hone : many = false := by simpa using hstraight.2.1
    exact .ok (.intro (hone ▸ rfl) hembedding)
  · refine .ok (.intro ?_ hembedding)
    cases many <;> rfl

theorem yields_joinOptions (request : Request) :
    Yields (fun _ => True) Fault.OnArguments (joinOptions request) := by
  unfold joinOptions
  split
  · exact .ok trivial
  · exact .ok trivial
  · exact .error rfl

theorem yields_joinActions (joinTable : String) (request : Request) :
    Yields (Fetching true) Fault.OnArguments (joinActions joinTable request) := by
  refine (yields_joinOptions request).bind fun options _ => ?_
  refine (Options.yields_splitEagerLoad options).bind fun ⟨options, embedding⟩ hembedding => ?_
  refine (Options.yields_requireMap options "conditions").bind fun _ _ => ?_
  refine (Options.yields_requireMap options "with_conditions").bind fun _ _ => ?_
  exact .ok (.intro rfl hembedding)

variable {plan : Plan}

/-- The actions of a plan that is no walk fetch as many rows as the plan returns. -/
theorem yields_actions (hserves : Serves plan.verb plan.kind plan.isCollection)
    (hverb : plan.verb ≠ .fromAnchor) (request : Request) :
    Yields (Fetching plan.isCollection) (fun fault => fault.kind ∈ [.arguments, .optionsNotPermitted])
      (plan.actions request) := by
  have hrefused : ∀ fault : Fault, fault.OnArguments →
      fault.kind ∈ [Fault.Kind.arguments, .optionsNotPermitted] := by
    intro fault hfault
    rw [hfault]
    decide
  unfold actions
  generalize plan.verb = verb, plan.kind = kind, plan.isCollection = many at hserves hverb
  cases hserves with
  | byField => exact (yields_lookupActions _ _ request).imp (fun _ h => h) hrefused
  | all =>
    show Yields _ _ (parameterlessActions request)
    unfold parameterlessActions
    split
    · exact .ok (.intro rfl nofun)
    · exact .error (by decide)
  | fromAnchor => exact absurd rfl hverb
  | joinedWith => exact (yields_joinActions _ request).imp (fun _ h => h) hrefused

/-! ## Walks -/

/-- A call along the relations that a request names, up to the result. -/
inductive WalkCall (resultKey : String) (request : Request) : List Action → Prop where
  | intro {via : List String} {options : Options} :
      Options.relations (request.options.get? "via") "via" = .ok via →
      options.get? "via" = some (.array ((chainTo resultKey via).map .string)) →
      WalkCall resultKey request [⟨.ancestors, options⟩]

theorem yields_anchorId (anchor : Json) :
    Yields (fun _ => True) Fault.OnArguments (anchorId anchor) := by
  unfold anchorId
  split
  · split
    · exact .error rfl
    · exact .error rfl
    · exact .ok trivial
  · exact .error rfl
  · exact .ok trivial

theorem yields_walkActions (resultKey : String) (request : Request) :
    Yields (WalkCall resultKey request) Fault.OnArguments (walkActions resultKey request) := by
  refine (request.yields_onlyValue _).bind fun anchor _ => ?_
  refine (Options.yields_relations (request.options.get? "via") "via").eq_ok.bind fun via hvia => ?_
  refine (Options.yields_requireMap (Options.compact request.options) "conditions").bind fun _ _ => ?_
  refine (yields_anchorId anchor).bind fun id _ => ?_
  refine .ok (.intro hvia ?_)
  rw [Fields.get?_insert_of_ne _ _ (by decide), Fields.get?_insert_self]
  rfl

theorem yields_actions_walk {anchor resultKey : String} (hkind : plan.kind = .walk anchor resultKey)
    (request : Request) :
    Yields (WalkCall resultKey request) Fault.OnArguments (plan.actions request) := by
  unfold actions
  rw [hkind]
  exact yields_walkActions resultKey request

end Plan

end NamedQuery
