import NamedQuery.Proofs.Plan.Actions

/-! # Blank options

A blank option is no option: what a request comes to depends on the options only through those that
are not blank (`Options.compact_congr`). Two builders look at options before the blank ones are gone,
a walk at its way and a join when it puts options by name before those by position, so two kinds of
blank options are `Noticed`. `actions_erase_blank_iff` says that there are no others. -/

namespace NamedQuery

namespace Options

/-! ## Options that callers ask for -/

variable {options other : Options}

theorem asked_erase (options : Options) (name asked : String) :
    Options.asked (options.erase name) asked = if name = asked then none else options.asked asked := by
  unfold Options.asked unlessBlank
  rw [Fields.get?_erase]
  split <;> rfl

/-- Options are alike without the blank ones if the same is asked for by them. -/
theorem compact_congr (hsorted : options.Sorted) (hother : other.Sorted)
    (h : ∀ name, options.asked name = other.asked name) : compact options = compact other := by
  refine (sorted_compact hsorted).ext (sorted_compact hother) fun name => ?_
  exact (get?_compact hsorted name).trans ((h name).trans (get?_compact hother name).symm)

theorem asked_erase_blank {name : String} {blank : Json} (hget : options.get? name = some blank)
    (hblank : blank.isBlank) (asked : String) :
    Options.asked (options.erase name) asked = options.asked asked := by
  rw [asked_erase]
  split
  · next heq =>
    rw [← heq, Options.asked, unlessBlank, hget, Option.filter_some]
    simp [hblank]
  · rfl

theorem compact_erase_blank (hsorted : options.Sorted) {name : String} {blank : Json}
    (hget : options.get? name = some blank) (hblank : blank.isBlank) :
    compact (options.erase name) = compact options :=
  compact_congr (hsorted.erase name) hsorted (asked_erase_blank hget hblank)

theorem asked_complete (options : Options) (positional : Fields Json) (name : String) :
    Options.asked (options.complete positional) name =
      ((options.get? name).or (positional.get? name)).filter fun value => !value.isBlank := by
  unfold Options.asked unlessBlank
  rw [Fields.get?_complete]

/-! ## Steps on options -/

theorem splitEagerLoad_congr (h : compact options = compact other) :
    splitEagerLoad options = splitEagerLoad other := by
  unfold splitEagerLoad
  rw [h]

theorem requireMap_congr {name : String} (h : options.get? name = other.get? name) :
    requireMap options name = requireMap other name := by
  unfold requireMap
  rw [h]

/-- Blank relations are none, unless they are an empty map. -/
theorem relations_of_blank {value : Json} (hblank : value.isBlank) (hmap : value ≠ .object [])
    (option : String) : relations (some value) option = relations none option := by
  cases value with
  | null => rfl
  | bool _ | number _ => cases hblank
  | string name =>
    have hempty : name.isEmpty = true := hblank
    simp [relations, hempty]
  | array items =>
    obtain rfl : items = [] := List.isEmpty_iff.1 hblank
    rfl
  | object fields =>
    obtain rfl : fields = [] := List.isEmpty_iff.1 hblank
    exact absurd rfl hmap

/-- Relations that are not blank are not none. -/
theorem relations_ne_nil {value : Json} (hblank : value.isBlank = false) {option : String}
    {names : List String} (h : relations (some value) option = .ok names) : names.isEmpty = false := by
  cases value with
  | null => cases hblank
  | bool _ | number _ | object _ => cases h
  | string name =>
    have hempty : name.isEmpty = false := hblank
    simp only [relations, hempty] at h
    cases h
    rfl
  | array items =>
    cases items with
    | nil => cases hblank
    | cons item rest =>
      unfold relations at h
      cases hnames : names? (item :: rest) with
      | none =>
        simp only [hnames] at h
        cases h
      | some found =>
        simp only [hnames] at h
        cases h
        cases item with
        | string name =>
          obtain ⟨_, _, rfl⟩ := Option.map_eq_some_iff.1 hnames
          rfl
        | _ => cases hnames

end Options

namespace Plan

open Options (compact)

/-! ## What a blank option can change -/

/-- The blank options that change what a request comes to: in a walk an empty map of relations on
the way, and in a join an option by name that has a value by position. The relation of a join is no
option of its callers. -/
inductive Noticed : Kind → List Json → String → Json → Prop where
  | via {anchor resultKey : String} {value : Json} :
      Noticed (.walk anchor resultKey) [value] "via" (.object [])
  | hides {baseTable joinTable name : String} {positional : Fields Json} {blank hidden : Json} :
      positional.get? name = some hidden → hidden.isBlank = false → name ≠ "with" →
      Noticed (.join baseTable joinTable) [.object positional] name blank

variable {values : List Json} {options other : Options} {name : String} {blank : Json}

theorem lookupActions_congr (field : Option String) (many : Bool)
    (h : compact options = compact other) :
    lookupActions field many ⟨values, options⟩ = lookupActions field many ⟨values, other⟩ := by
  unfold lookupActions
  rw [Request.onlyValue_congr _ values options other]
  simp only [Options.splitEagerLoad_congr h]

theorem walkActions_congr (resultKey : String) (h : compact options = compact other)
    (hvia : Options.relations (options.get? "via") "via" =
      Options.relations (other.get? "via") "via") :
    walkActions resultKey ⟨values, options⟩ = walkActions resultKey ⟨values, other⟩ := by
  unfold walkActions
  rw [Request.onlyValue_congr _ values options other]
  simp only [hvia, h]

/-! ## Joins -/

/-- The actions of a join with the options that remain, and those that embed. -/
def joinCalls (joinTable : String) (options : Options) (eagerLoad : List Action) :
    Except Fault (List Action) := do
  Options.requireMap options "conditions"
  Options.requireMap options "with_conditions"
  return ⟨.join, options.insert "with" (.string joinTable)⟩ :: eagerLoad

def joinWith (joinTable : String) (options : Options) : Except Fault (List Action) := do
  let (options, eagerLoad) ← Options.splitEagerLoad options
  joinCalls joinTable options eagerLoad

theorem joinActions_named (joinTable : String) (options : Options) :
    joinActions joinTable ⟨[], options⟩ = joinWith joinTable options := rfl

theorem joinActions_both (joinTable : String) (positional : Fields Json) (options : Options) :
    joinActions joinTable ⟨[.object positional], options⟩ =
      joinWith joinTable (options.complete positional) := rfl

theorem joinWith_congr (joinTable : String) (h : compact options = compact other) :
    joinWith joinTable options = joinWith joinTable other := by
  unfold joinWith
  rw [Options.splitEagerLoad_congr h]

/-- A join that is accepted is one action, and perhaps one that embeds the relations asked for. -/
theorem joinWith_ok (hsorted : options.Sorted) {joinTable : String} {actions : List Action}
    (h : joinWith joinTable options = .ok actions) :
    ∃ names, Options.relations (options.asked "eager_load") "eager_load" = .ok names ∧
      actions = ⟨.join, options.remaining.insert "with" (.string joinTable)⟩ ::
        if names.isEmpty then [] else [⟨.eagerLoad, [("relations", Options.ofNames names)]⟩] := by
  obtain ⟨split, hsplit, h⟩ := bind_eq_ok_iff.1 h
  obtain ⟨names, hnames, hsplit⟩ := bind_eq_ok_iff.1 hsplit
  cases hsplit
  obtain ⟨_, _, h⟩ := bind_eq_ok_iff.1 h
  obtain ⟨_, _, h⟩ := bind_eq_ok_iff.1 h
  cases h
  rw [Options.get?_compact hsorted] at hnames
  exact ⟨names, hnames, rfl⟩

/-- The relation of a join is the plan's, whatever is asked for under its name. -/
theorem joinWith_erase_with (hsorted : options.Sorted) (joinTable : String) :
    joinWith joinTable (options.erase "with") = joinWith joinTable options := by
  -- Nothing looks at `with` before it is set, and then it does not matter what it was.
  have hget : ∀ name, "with" ≠ name →
      (compact (options.erase "with")).get? name = (compact options).get? name := by
    intro name hname
    rw [Options.get?_compact (hsorted.erase _), Options.get?_compact hsorted, Options.asked_erase,
      if_neg hname]
  have hremaining : ∀ name, "with" ≠ name →
      Fields.get? (Options.remaining (options.erase "with")) name = options.remaining.get? name := by
    intro name hname
    rw [Options.remaining, Options.remaining, Fields.get?_erase, Fields.get?_erase, hget name hname]
  have hinsert : (Options.remaining (options.erase "with")).insert "with" (.string joinTable) =
      options.remaining.insert "with" (.string joinTable) := by
    have hsorted' := Options.sorted_remaining (hsorted.erase "with")
    refine (hsorted'.insert ..).ext ((Options.sorted_remaining hsorted).insert ..) fun name => ?_
    rw [Fields.get?_insert, Fields.get?_insert]
    split
    · rfl
    · next hname => exact hremaining name hname
  unfold joinWith
  simp only [Options.splitEagerLoad]
  rw [hget "eager_load" (by decide)]
  cases Options.relations ((compact options).get? "eager_load") "eager_load" with
  | error fault => rfl
  | ok names =>
    show joinCalls joinTable (Options.remaining (options.erase "with")) _ =
      joinCalls joinTable options.remaining _
    unfold joinCalls
    rw [Options.requireMap_congr (hremaining "conditions" (by decide)),
      Options.requireMap_congr (hremaining "with_conditions" (by decide)), hinsert]

/-! ## Blank options -/

section Blank

variable (hsorted : options.Sorted) (hget : options.get? name = some blank) (hblank : blank.isBlank)
include hsorted hget hblank

theorem walkActions_erase_blank (resultKey : String) (hvia : ¬ (name = "via" ∧ blank = .object [])) :
    walkActions resultKey ⟨values, options⟩ = walkActions resultKey ⟨values, options.erase name⟩ := by
  refine walkActions_congr resultKey (Options.compact_erase_blank hsorted hget hblank).symm ?_
  rw [Fields.get?_erase]
  split
  · next heq =>
    have hmap : blank ≠ .object [] := fun hmap => hvia ⟨heq, hmap⟩
    rw [← heq, hget, Options.relations_of_blank hblank hmap]
  · rfl

/-- A blank option by name leaves a join as it is if it hides nothing. -/
theorem joinWith_complete_erase_blank (joinTable : String) {positional : Fields Json}
    (hhides : ∀ hidden, positional.get? name = some hidden → hidden.isBlank = false →
      name = "with") :
    joinWith joinTable (options.complete positional) =
      joinWith joinTable (Fields.complete (options.erase name) positional) := by
  have hcomplete := hsorted.complete positional
  have hcomplete' := (hsorted.erase name).complete positional
  have hasked : ∀ asked, name ≠ asked →
      Options.asked (options.complete positional) asked =
        Options.asked (Fields.complete (options.erase name) positional) asked := by
    intro asked hne
    rw [Options.asked_complete, Options.asked_complete, Fields.get?_erase, if_neg hne]
  by_cases hwith : name = "with"
  · -- What stands under `with` is replaced in any case.
    subst hwith
    rw [← joinWith_erase_with hcomplete, ← joinWith_erase_with hcomplete']
    refine joinWith_congr joinTable (Options.compact_congr (hcomplete.erase _) (hcomplete'.erase _)
      fun asked => ?_)
    rw [Options.asked_erase, Options.asked_erase]
    split
    · rfl
    · next hne => exact hasked asked hne
  · refine joinWith_congr joinTable (Options.compact_congr hcomplete hcomplete' fun asked => ?_)
    by_cases hne : name = asked
    · subst hne
      rw [Options.asked_complete, Options.asked_complete, hget, Fields.get?_erase, if_pos rfl,
        Option.some_or, Option.none_or, Option.filter_some, if_neg (by simp [hblank])]
      cases hhidden : positional.get? name with
      | none => rfl
      | some hidden =>
        have hshown : hidden.isBlank = true := by
          cases hshown : hidden.isBlank with
          | true => rfl
          | false => exact absurd (hhides hidden hhidden hshown) hwith
        rw [Option.filter_some, if_neg (by simp [hshown])]
    · exact hasked asked hne

/-- A join whose option by name hides one by position is not the join without it. -/
theorem joinWith_ne_of_hidden {joinTable : String} {positional : Fields Json} {hidden : Json}
    (hhidden : positional.get? name = some hidden) (hshown : hidden.isBlank = false)
    (hwith : name ≠ "with") {actions : List Action}
    (hheld : joinWith joinTable (options.complete positional) = .ok actions)
    (hmissing : joinWith joinTable (Fields.complete (options.erase name) positional) = .ok actions) :
    False := by
  have hcomplete := hsorted.complete positional
  have hcomplete' := (hsorted.erase name).complete positional
  have hasked : Options.asked (options.complete positional) name = none := by
    rw [Options.asked_complete, hget, Option.some_or, Option.filter_some, if_neg (by simp [hblank])]
  have hasked' : Options.asked (Fields.complete (options.erase name) positional) name =
      some hidden := by
    rw [Options.asked_complete, Fields.get?_erase, if_pos rfl, Option.none_or, hhidden,
      Option.filter_some, if_pos (by simp [hshown])]
  obtain ⟨names, hnames, rfl⟩ := joinWith_ok hcomplete hheld
  obtain ⟨names', hnames', hactions⟩ := joinWith_ok hcomplete' hmissing
  obtain ⟨hjoin, hembed⟩ := List.cons.inj hactions
  by_cases heager : "eager_load" = name
  · subst heager
    -- What is hidden is a request to embed, which comes to an action of its own.
    rw [hasked] at hnames
    cases hnames
    rw [hasked'] at hnames'
    rw [Options.relations_ne_nil hshown hnames'] at hembed
    cases hembed
  · have hoptions := congrArg (fun options => Fields.get? options name) (Action.mk.inj hjoin).2
    simp only [Fields.get?_insert_of_ne _ _ (Ne.symm hwith),
      Options.get?_remaining hcomplete heager, Options.get?_remaining hcomplete' heager, hasked,
      hasked'] at hoptions
    cases hoptions

/-- A blank option that is not noticed changes nothing. -/
theorem actions_erase_blank_of_not_noticed {plan : Plan}
    (hparameter : ∀ field, plan.kind ≠ .lookup field true)
    (hnoticed : ¬ Noticed plan.kind values name blank) :
    plan.actions ⟨values, options⟩ = plan.actions ⟨values, options.erase name⟩ := by
  have hcompact := Options.compact_erase_blank hsorted hget hblank
  unfold actions
  generalize plan.kind = kind at hnoticed hparameter
  cases kind with
  | lookup field parameterless =>
    cases parameterless with
    | true => exact absurd rfl (hparameter field)
    | false => exact lookupActions_congr field plan.isCollection hcompact.symm
  | walk anchor resultKey =>
    show walkActions _ _ = walkActions _ _
    by_cases hvia : name = "via" ∧ blank = .object []
    · -- Without exactly one anchor a walk is refused before its way is looked at.
      obtain ⟨rfl, rfl⟩ := hvia
      match values, hnoticed with
      | [], _ => rfl
      | [_], hnoticed => exact absurd .via hnoticed
      | _ :: _ :: _, _ => rfl
    · exact walkActions_erase_blank hsorted hget hblank resultKey hvia
  | join baseTable joinTable =>
    show joinActions _ _ = joinActions _ _
    match values, hnoticed with
    | [], _ =>
      rw [joinActions_named, joinActions_named]
      exact joinWith_congr joinTable hcompact.symm
    | [.object positional], hnoticed =>
      rw [joinActions_both, joinActions_both]
      refine joinWith_complete_erase_blank hsorted hget hblank joinTable ?_
      intro hidden hhidden hshown
      exact Decidable.byContradiction fun hwith => hnoticed (.hides hhidden hshown hwith)
    | [.null], _ | [.bool _], _ | [.number _], _ | [.string _], _ | [.array _], _ => rfl
    | first :: _ :: _, _ => cases first <;> rfl

/-- A blank option that is noticed leaves no request that is accepted as it was. -/
theorem Noticed.ne_of_accepted {plan : Plan} (h : Noticed plan.kind values name blank)
    {accepted : List Action} (hheld : plan.actions ⟨values, options⟩ = .ok accepted)
    (hmissing : plan.actions ⟨values, options.erase name⟩ = .ok accepted) : False := by
  unfold actions at hheld hmissing
  generalize plan.kind = kind at h hheld hmissing
  cases h with
  | via =>
    -- The empty map is refused as a way.
    obtain ⟨_, _, hheld⟩ := bind_eq_ok_iff.1 hheld
    obtain ⟨via, hvia, _⟩ := bind_eq_ok_iff.1 hheld
    rw [hget] at hvia
    cases hvia
  | hides hhidden hshown hwith =>
    simp only [joinActions_both] at hheld hmissing
    exact joinWith_ne_of_hidden hsorted hget hblank hhidden hshown hwith hheld hmissing

/-- What a request with parameters comes to is the same with a blank option and without it, but for
the ones that are noticed: they leave nothing as it is, unless the request is refused for another
reason anyway. -/
theorem actions_erase_blank_iff {plan : Plan} (hparameter : ∀ field, plan.kind ≠ .lookup field true)
    (values : List Json) :
    plan.actions ⟨values, options⟩ = plan.actions ⟨values, options.erase name⟩ ↔
      ¬ Noticed plan.kind values name blank ∨
      ∃ fault, plan.actions ⟨values, options⟩ = .error fault ∧
        plan.actions ⟨values, options.erase name⟩ = .error fault := by
  constructor
  · intro heq
    by_cases hnoticed : Noticed plan.kind values name blank
    · cases hheld : plan.actions ⟨values, options⟩ with
      | error fault => exact .inr ⟨fault, rfl, heq ▸ hheld⟩
      | ok accepted =>
        exact absurd (heq ▸ hheld) (hnoticed.ne_of_accepted hsorted hget hblank hheld)
    · exact .inl hnoticed
  · rintro (hnoticed | ⟨fault, hheld, hmissing⟩)
    · exact actions_erase_blank_of_not_noticed hsorted hget hblank hparameter hnoticed
    · rw [hheld, hmissing]

end Blank

def postsFromUser : Plan where
  identifier := "PostsFromUser"
  verb := .fromAnchor
  kind := .walk "user" "posts"
  isCollection := true
  target := "posts"
  table := "users"

/-- The way of a walk may be left out, and it may be blank as null, as a text or as a list. As a map
it is refused. -/
theorem emptyMap_noticed_as_way :
    let anchor : Json := .number (.integer 1)
    postsFromUser.actions ⟨[anchor], [("via", .array [])]⟩ = postsFromUser.actions ⟨[anchor], []⟩ ∧
      postsFromUser.actions ⟨[anchor], [("via", .object [])]⟩ ≠
        postsFromUser.actions ⟨[anchor], []⟩ := by
  intro anchor
  have hparameter : ∀ field, postsFromUser.kind ≠ .lookup field true := nofun
  have hsorted : ∀ blank : Json, Fields.Sorted [("via", blank)] := fun _ => List.pairwise_singleton ..
  have hget : ∀ blank : Json, Fields.get? [("via", blank)] "via" = some blank := fun _ => rfl
  have hlist := actions_erase_blank_iff (hsorted _) (hget (.array [])) rfl hparameter [anchor]
  have hmap := actions_erase_blank_iff (hsorted _) (hget (.object [])) rfl hparameter [anchor]
  constructor
  · exact hlist.2 (.inl fun h => by cases h)
  · intro heq
    rcases hmap.1 heq with hnot | ⟨fault, _, hrefused⟩
    · exact hnot .via
    · cases hrefused

end Plan

end NamedQuery
