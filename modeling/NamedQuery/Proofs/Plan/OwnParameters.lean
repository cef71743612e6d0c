import NamedQuery.Proofs.Engine.Join
import NamedQuery.Proofs.Engine.Lookup
import NamedQuery.Proofs.Plan.Blanks

/-! # The parameters of a plan

Some of what a plan calls with is its own: the conditions of its key, the relation of a join, the anchor,
the way and the result of a walk. Callers are free in the names of their options, and a join takes a whole
map of them by position. `Calls` says which calls a request comes to and what is found in their options,
under every name: a plan's own parameters are never the caller's (`actions_iff_calls`).

A walk takes its way in several forms. They are told apart by the chain of relations that they list, and
chains are told apart once they lead to the result (`LeadsTo`). -/

namespace NamedQuery

open Store (Ask ConditionsIn)

namespace Options

/-! ## Lists of relations -/

inductive Lists : Option Json → List String → Prop where
  | missing : Lists none []
  | null : Lists (some .null) []
  | blank : Lists (some (.string "")) []
  | name {name : String} : name ≠ "" → Lists (some (.string name)) [name]
  | names {names : List String} : Lists (some (ofNames names)) names

theorem names?_eq_some_iff {items : List Json} {names : List String} :
    names? items = some names ↔ items = names.map .string := by
  induction items generalizing names with
  | nil => cases names <;> simp [names?]
  | cons item rest ih =>
    cases item with
    | string name =>
      cases names with
      | nil => simp [names?]
      | cons first others =>
        simp only [names?, Option.map_eq_some_iff, ih, List.map_cons, List.cons.injEq, Json.string.injEq]
        constructor
        · rintro ⟨_, hrest, rfl, rfl⟩
          exact ⟨rfl, hrest⟩
        · rintro ⟨rfl, hrest⟩
          exact ⟨others, hrest, rfl, rfl⟩
    | _ => cases names <;> simp [names?]

theorem relations_eq_ok_iff {value : Option Json} {option : String} {names : List String} :
    relations value option = .ok names ↔ Lists value names := by
  constructor
  · intro h
    unfold relations at h
    split at h
    · cases h
      exact .missing
    · cases h
      exact .null
    · next name =>
      cases h
      split
      · next hempty =>
        rw [String.isEmpty_iff.1 hempty]
        exact .blank
      · next hempty => exact .name fun hname => hempty (String.isEmpty_iff.2 hname)
    · next items =>
      split at h
      · next found hfound =>
        cases h
        rw [names?_eq_some_iff.1 hfound]
        exact .names
      · cases h
    · cases h
  · intro h
    cases h with
    | missing | null => rfl
    | blank => rfl
    | @name name hname => simp [relations, hname]
    | names =>
      unfold relations ofNames
      simp only [names?_eq_some_iff.2 rfl]

/-- The calls that embed the relations which a value lists: one, unless it lists none. -/
inductive Embedding (value : Option Json) : List Action → Prop where
  | none : Lists value [] → Embedding value []
  | one {names : List String} : Lists value names → names ≠ [] →
      Embedding value [⟨.eagerLoad, [("relations", ofNames names)]⟩]

/-! ## What options hold -/

/-- Options that hold entries of their own. Under the other names they hold what is asked for, but for the
names that are withheld. -/
structure Holds (own : Fields Json) (withheld : List String) (ask : Ask) (options : Options) : Prop where
  sorted : options.Sorted
  get?_eq : ∀ name, options.get? name =
    (own.get? name).or (if name ∈ withheld then none else ask name)

theorem Holds.unique {own : Fields Json} {withheld : List String} {ask : Ask} {options other : Options}
    (h : Holds own withheld ask options) (h' : Holds own withheld ask other) : options = other :=
  h.sorted.ext h'.sorted fun name => (h.get?_eq name).trans (h'.get?_eq name).symm

variable {options : Options}

/-- An own parameter beside all options but the one that asks to embed. -/
theorem holds_insert_remaining (hsorted : options.Sorted) (parameter : String) (value : Json) :
    Holds [(parameter, value)] ["eager_load"] options.asked (options.remaining.insert parameter value) := by
  refine ⟨(sorted_remaining hsorted).insert .., fun name => ?_⟩
  have hwithheld : name ∈ ["eager_load"] ↔ "eager_load" = name := List.mem_singleton.trans eq_comm
  rw [Fields.get?_insert, get?_remaining_eq hsorted, Fields.get?_cons]
  simp only [hwithheld]
  split <;> rfl

/-! ## Accepted options -/

theorem unlessBlank_ne_null (ask : Ask) (name : String) : unlessBlank ask name ≠ some .null := by
  intro h
  have hblank := (Option.filter_eq_some_iff.1 h).2
  cases hblank

/-- An option that has to be a map is accepted if it states conditions, where blank options are gone. -/
theorem requireMap_eq_ok_iff {ask : Ask} {name : String}
    (hget : options.get? name = unlessBlank ask name) :
    requireMap options name = .ok () ↔ ∃ conditions, ConditionsIn (unlessBlank ask name) conditions := by
  rw [← hget]
  refine ⟨conditionsIn_of_requireMap, ?_⟩
  rintro ⟨conditions, hconditions⟩
  have hnull : options.get? name ≠ some .null := hget ▸ unlessBlank_ne_null ask name
  unfold requireMap
  generalize options.get? name = value at hconditions hnull
  cases hconditions with
  | none hsilent =>
    rcases hsilent with rfl | rfl
    · rfl
    · exact absurd rfl hnull
  | map => rfl

theorem splitEagerLoad_eq_ok_iff (hsorted : options.Sorted) {split : Options × List Action} :
    splitEagerLoad options = .ok split ↔
      split.1 = options.remaining ∧ Embedding (options.asked "eager_load") split.2 := by
  unfold splitEagerLoad
  simp only [get?_compact hsorted, bind_eq_ok_iff, relations_eq_ok_iff]
  constructor
  · rintro ⟨names, hnames, h⟩
    cases h
    refine ⟨rfl, ?_⟩
    cases names with
    | nil => exact .none hnames
    | cons first rest => exact .one hnames (List.cons_ne_nil _ _)
  · obtain ⟨rest, embedding⟩ := split
    rintro ⟨rfl, h⟩
    cases h with
    | none hnames => exact ⟨[], hnames, rfl⟩
    | @one names hnames hne =>
      refine ⟨names, hnames, ?_⟩
      rw [if_neg (by simpa using hne)]
      rfl

end Options

namespace Plan

open Options (Lists Embedding Holds ofNames)

/-! ## Calls -/

/-- A lookup of one record by `id`, with no options but the one that asks to embed. -/
def ByIdentity (field : Option String) (many : Bool) (options : Options) : Prop :=
  field = some primaryKey ∧ many = false ∧ ∀ name, name ≠ "eager_load" → options.asked name = none

/-- The identity of an anchor, which is given itself or as a field of a map. -/
inductive Identifies : Json → Json → Prop where
  | field {fields : Fields Json} {id : Json} : fields.get? "id" = some id → id ≠ .null →
      Identifies (.object fields) id
  | itself {id : Json} : id ≠ .null → (∀ fields, id ≠ .object fields) → Identifies id id

/-- A chain of relations to the result: the one of the caller if that ends in the relation to the result,
and else with this relation behind it. -/
inductive LeadsTo (resultKey : String) : List String → List String → Prop where
  | already {before : List String} : LeadsTo resultKey (before ++ [resultKey]) (before ++ [resultKey])
  | appended {via : List String} : via.getLast? ≠ some resultKey →
      LeadsTo resultKey via (via ++ [resultKey])

/-- The calls that a request to a plan comes to: the first one, and those that embed. -/
inductive Calls (plan : Plan) (request : Request) : Action → List Action → Prop where
  /-- One record by `id` goes straight to the record. -/
  | get {field : Option String} {value : Json} {embedding : List Action} :
      plan.verb = .byField → plan.kind = .lookup field false → request.values = [value] →
      ByIdentity field plan.isCollection request.options →
      Embedding (request.options.asked "eager_load") embedding →
      Calls plan request ⟨.get, [("id", value)]⟩ embedding
  /-- Other lookups search. What the value stands for is completed by the conditions of the caller. -/
  | search {field : Option String} {value : Json} {own given : Fields Json} {options : Options}
      {embedding : List Action} :
      plan.verb = .byField → plan.kind = .lookup field false → request.values = [value] →
      ¬ ByIdentity field plan.isCollection request.options →
      OwnConditions field value own → ConditionsIn (request.options.asked "conditions") given →
      Holds [("conditions", .object (own.complete given))] ["eager_load"] request.options.asked options →
      Embedding (request.options.asked "eager_load") embedding →
      Calls plan request ⟨if plan.isCollection then .findAll else .findFirst, options⟩ embedding
  /-- All records are asked for with nothing else. -/
  | all {field : Option String} :
      plan.verb = .all → plan.kind = .lookup field true → request.isEmpty →
      Calls plan request ⟨.findAll, []⟩ []
  /-- A walk keeps even a request to embed among its options, as it embeds nothing. -/
  | ancestors {anchor resultKey : String} {value id : Json} {via chain : List String}
      {given : Fields Json} {options : Options} :
      plan.verb = .fromAnchor → plan.kind = .walk anchor resultKey → request.values = [value] →
      Identifies value id → Lists (request.options.get? "via") via → LeadsTo resultKey via chain →
      ConditionsIn (request.options.asked "conditions") given →
      Holds [("id", id), ("result_key", .string resultKey), ("via", ofNames chain)] []
        request.options.asked options →
      Calls plan request ⟨.ancestors, options⟩ []
  /-- A join has its options by name and by position, and both kinds of conditions are maps. -/
  | join {base key : String} {ask : Ask} {given partners : Fields Json} {options : Options}
      {embedding : List Action} :
      plan.verb = .joinedWith → plan.kind = .join base key → OptionsOf request ask →
      ConditionsIn (Options.unlessBlank ask "conditions") given →
      ConditionsIn (Options.unlessBlank ask "with_conditions") partners →
      Holds [("with", .string key)] ["eager_load"] (Options.unlessBlank ask) options →
      Embedding (Options.unlessBlank ask "eager_load") embedding →
      Calls plan request ⟨.join, options⟩ embedding

theorem Calls.length_le {plan : Plan} {request : Request} {first : Action} {embedding : List Action}
    (h : Calls plan request first embedding) : embedding.length ≤ 1 := by
  cases h with
  | get _ _ _ _ hembedding | search _ _ _ _ _ _ _ hembedding | join _ _ _ _ _ _ hembedding =>
    cases hembedding <;> simp
  | all | ancestors => simp

/-! ## Lookups -/

theorem conditionsOf_eq_ok_iff {field : Option String} {value : Json} {own : Fields Json} :
    conditionsOf field value = .ok own ↔ OwnConditions field value own := by
  refine ⟨conditionsOf_ok, ?_⟩
  intro h
  cases h <;> rfl

theorem callerConditions_eq {options : Options} {value : Option Json} {given : Fields Json}
    (hget : options.get? "conditions" = value) (h : ConditionsIn value given) :
    callerConditions options = given := by
  unfold callerConditions
  rw [hget]
  cases h with
  | none hsilent => rcases hsilent with rfl | rfl <;> rfl
  | map => rfl

theorem byIdentity_iff {field : Option String} {many : Bool} {options : Options}
    (hsorted : options.Sorted) :
    ByIdentity field many options ↔ field = some primaryKey ∧ !many ∧ options.remaining.isEmpty := by
  have hempty : options.remaining.isEmpty ↔ ∀ name, name ≠ "eager_load" → options.asked name = none := by
    rw [List.isEmpty_iff]
    constructor
    · intro h name hname
      rw [← Options.get?_remaining hsorted (Ne.symm hname), h]
      rfl
    · intro h
      refine (Options.sorted_remaining hsorted).ext Fields.sorted_nil fun name => ?_
      rw [Options.get?_remaining_eq hsorted]
      split
      · rfl
      · next hname => exact h name (Ne.symm hname)
  rw [ByIdentity, hempty]
  simp

variable {plan : Plan} {request : Request} {actions : List Action}

theorem lookupActions_eq_ok_iff (hsorted : request.options.Sorted) {field : Option String}
    (hverb : plan.verb = .byField) (hkind : plan.kind = .lookup field false) :
    lookupActions field plan.isCollection request = .ok actions ↔
      ∃ first embedding, actions = first :: embedding ∧ Calls plan request first embedding := by
  have hget : request.options.remaining.get? "conditions" = request.options.asked "conditions" :=
    Options.get?_remaining hsorted (by decide)
  unfold lookupActions
  simp only [bind_eq_ok_iff, Request.onlyValue_eq_ok_iff, conditionsOf_eq_ok_iff,
    Options.splitEagerLoad_eq_ok_iff hsorted]
  -- What is accepted has passed one check after another, and a call is enough to pass each of them; the
  -- options of the call are the only ones that hold what it says (`Holds.unique`).
  constructor
  · rintro ⟨value, hvalue, own, hown, ⟨_, embedding⟩, ⟨rfl, hembedding⟩, ⟨⟩, hconditions, h⟩
    obtain ⟨given, hconditions⟩ := (Options.requireMap_eq_ok_iff hget).1 hconditions
    have hcaller := callerConditions_eq hget hconditions
    by_cases hidentity : ByIdentity field plan.isCollection request.options
    · rw [if_pos ((byIdentity_iff hsorted).1 hidentity)] at h
      cases h
      exact ⟨_, _, rfl, .get hverb hkind hvalue hidentity hembedding⟩
    · rw [if_neg fun h => hidentity ((byIdentity_iff hsorted).2 h), hcaller] at h
      cases h
      exact ⟨_, _, rfl, .search hverb hkind hvalue hidentity hown hconditions
        (Options.holds_insert_remaining hsorted ..) hembedding⟩
  · rintro ⟨first, embedding, rfl, hcalls⟩
    cases hcalls with
    | @get field value _ _ hkind' hvalue hidentity hembedding =>
      cases hkind.symm.trans hkind'
      obtain rfl := hidentity.1
      have hsilent : request.options.asked "conditions" = none := hidentity.2.2 _ (by decide)
      refine ⟨value, hvalue, _, .field, (request.options.remaining, _), ⟨rfl, hembedding⟩, (), ?_, ?_⟩
      · exact (Options.requireMap_eq_ok_iff hget).2 ⟨[], .none (.inl hsilent)⟩
      · rw [if_pos ((byIdentity_iff hsorted).1 hidentity)]
        rfl
    | @search field value own given options _ _ hkind' hvalue hidentity hown hconditions hholds
        hembedding =>
      cases hkind.symm.trans hkind'
      have hcaller := callerConditions_eq hget hconditions
      refine ⟨value, hvalue, own, hown, (request.options.remaining, _), ⟨rfl, hembedding⟩, (), ?_, ?_⟩
      · exact (Options.requireMap_eq_ok_iff hget).2 ⟨given, hconditions⟩
      · rw [if_neg fun h => hidentity ((byIdentity_iff hsorted).2 h), hcaller,
          hholds.unique (Options.holds_insert_remaining hsorted ..)]
        rfl
    | all _ hkind' _ | ancestors _ hkind' _ _ _ _ _ _ | join _ hkind' _ _ _ _ _ =>
      cases hkind.symm.trans hkind'

theorem parameterlessActions_eq_ok_iff {field : Option String} (hverb : plan.verb = .all)
    (hkind : plan.kind = .lookup field true) :
    parameterlessActions request = .ok actions ↔
      ∃ first embedding, actions = first :: embedding ∧ Calls plan request first embedding := by
  unfold parameterlessActions
  constructor
  · intro h
    split at h
    · next hempty =>
      cases h
      exact ⟨_, _, rfl, .all hverb hkind hempty⟩
    · cases h
  · rintro ⟨first, embedding, rfl, hcalls⟩
    cases hcalls with
    | all _ _ hempty => rw [if_pos hempty]
    | get _ hkind' | search _ hkind' | ancestors _ hkind' | join _ hkind' =>
      cases hkind.symm.trans hkind'

/-! ## Walks -/

theorem anchorId_eq_ok_iff {anchor id : Json} : anchorId anchor = .ok id ↔ Identifies anchor id := by
  constructor
  · intro h
    unfold anchorId at h
    split at h
    · next fields =>
      split at h
      · cases h
      · cases h
      · next found hnull hfound =>
        cases h
        exact .field hfound hnull
    · cases h
    · next hmap hnull =>
      cases h
      exact .itself hnull hmap
  · intro h
    cases h with
    | field hfound hnull =>
      simp only [anchorId, hfound]
    | itself hnull hmap =>
      unfold anchorId
      split
      · next fields => exact absurd rfl (hmap fields)
      · exact absurd rfl hnull
      · rfl

theorem leadsTo_iff {resultKey : String} {via chain : List String} :
    LeadsTo resultKey via chain ↔ chain = chainTo resultKey via := by
  unfold chainTo
  constructor
  · intro h
    cases h with
    | already => rw [if_pos List.getLast?_concat]
    | appended hlast => rw [if_neg hlast]
  · rintro rfl
    split
    · next hlast =>
      obtain ⟨before, rfl⟩ := List.getLast?_eq_some_iff.1 hlast
      exact .already
    · next hlast => exact .appended hlast

def walkOptions (resultKey : String) (options : Options) (id : Json) (chain : List String) : Options :=
  ((((Options.compact options).erase "via").insert "id" id).insert "via" (ofNames chain)).insert
    "result_key" (.string resultKey)

theorem holds_walkOptions (hsorted : request.options.Sorted) (resultKey : String) (id : Json)
    (chain : List String) :
    Holds [("id", id), ("result_key", .string resultKey), ("via", ofNames chain)] []
      request.options.asked (walkOptions resultKey request.options id chain) := by
  refine ⟨((((Options.sorted_compact hsorted).erase _).insert ..).insert ..).insert .., fun name => ?_⟩
  rw [walkOptions, Fields.get?_insert, Fields.get?_insert, Fields.get?_insert, Fields.get?_erase,
    Options.get?_compact hsorted]
  simp only [Fields.get?_cons, Fields.get?_nil, List.not_mem_nil, if_false]
  by_cases hresult : "result_key" = name
  · subst hresult
    rfl
  by_cases hvia : "via" = name
  · subst hvia
    rfl
  · rw [if_neg hresult, if_neg hvia, if_neg hvia, if_neg hresult, if_neg hvia]
    split <;> rfl

theorem walkActions_eq_ok_iff (hsorted : request.options.Sorted) {anchor resultKey : String}
    (hverb : plan.verb = .fromAnchor) (hkind : plan.kind = .walk anchor resultKey) :
    walkActions resultKey request = .ok actions ↔
      ∃ first embedding, actions = first :: embedding ∧ Calls plan request first embedding := by
  have hget : (Options.compact request.options).get? "conditions" = request.options.asked "conditions" :=
    Options.get?_compact hsorted _
  unfold walkActions
  simp only [bind_eq_ok_iff, Request.onlyValue_eq_ok_iff, Options.relations_eq_ok_iff, anchorId_eq_ok_iff]
  constructor
  · rintro ⟨value, hvalue, via, hvia, ⟨⟩, hconditions, id, hid, h⟩
    obtain ⟨given, hconditions⟩ := (Options.requireMap_eq_ok_iff hget).1 hconditions
    cases h
    exact ⟨_, _, rfl, .ancestors hverb hkind hvalue hid hvia (leadsTo_iff.2 rfl) hconditions
      (holds_walkOptions hsorted ..)⟩
  · rintro ⟨first, embedding, rfl, hcalls⟩
    cases hcalls with
    | @ancestors _ _ value id via chain given options _ hkind' hvalue hid hvia hchain hconditions
        hholds =>
      cases hkind.symm.trans hkind'
      obtain rfl := leadsTo_iff.1 hchain
      refine ⟨value, hvalue, via, hvia, (), ?_, id, hid, ?_⟩
      · exact (Options.requireMap_eq_ok_iff hget).2 ⟨given, hconditions⟩
      · rw [hholds.unique (holds_walkOptions hsorted ..)]
        rfl
    | get _ hkind' | search _ hkind' | all _ hkind' | join _ hkind' =>
      cases hkind.symm.trans hkind'

/-! ## Joins -/

theorem exists_joinOptions {ask : Ask} (h : OptionsOf request ask) :
    ∃ options : Options, joinOptions request = .ok options ∧ options.get? = ask := by
  cases h with
  | @named options => exact ⟨options, rfl, rfl⟩
  | @both positional options =>
    exact ⟨options.complete positional, rfl, funext fun name => Fields.get?_complete ..⟩

theorem joinActions_eq_ok_iff (hsorted : request.options.Sorted) {base key : String}
    (hverb : plan.verb = .joinedWith) (hkind : plan.kind = .join base key) :
    joinActions key request = .ok actions ↔
      ∃ first embedding, actions = first :: embedding ∧ Calls plan request first embedding := by
  unfold joinActions
  simp only [bind_eq_ok_iff]
  constructor
  · rintro ⟨options, hoptions, ⟨_, embedding⟩, hsplit, ⟨⟩, hconditions, ⟨⟩, hpartners, h⟩
    obtain ⟨hof, hsorted⟩ := joinOptions_ok hsorted hoptions
    obtain ⟨rfl, hembedding⟩ := (Options.splitEagerLoad_eq_ok_iff hsorted).1 hsplit
    have hget : ∀ name, "eager_load" ≠ name →
        options.remaining.get? name = Options.unlessBlank options.get? name :=
      fun name hname => Options.get?_remaining hsorted hname
    obtain ⟨given, hgiven⟩ := (Options.requireMap_eq_ok_iff (hget _ (by decide))).1 hconditions
    obtain ⟨partners, hpartners⟩ := (Options.requireMap_eq_ok_iff (hget _ (by decide))).1 hpartners
    cases h
    exact ⟨_, _, rfl, .join hverb hkind hof hgiven hpartners
      (Options.holds_insert_remaining hsorted ..) hembedding⟩
  · rintro ⟨first, embedding, rfl, hcalls⟩
    cases hcalls with
    | @join _ _ ask given partners held _ _ hkind' hof hgiven hpartners hholds hembedding =>
      cases hkind.symm.trans hkind'
      obtain ⟨options, hoptions, rfl⟩ := exists_joinOptions hof
      obtain ⟨_, hsorted⟩ := joinOptions_ok hsorted hoptions
      refine ⟨options, hoptions, (options.remaining, embedding), ?_, (), ?_, (), ?_, ?_⟩
      · exact (Options.splitEagerLoad_eq_ok_iff hsorted).2 ⟨rfl, hembedding⟩
      · exact (Options.requireMap_eq_ok_iff (Options.get?_remaining hsorted (by decide))).2 ⟨_, hgiven⟩
      · exact (Options.requireMap_eq_ok_iff (Options.get?_remaining hsorted (by decide))).2
          ⟨_, hpartners⟩
      · rw [hholds.unique (Options.holds_insert_remaining hsorted ..)]
        rfl
    | get _ hkind' | search _ hkind' | all _ hkind' | ancestors _ hkind' =>
      cases hkind.symm.trans hkind'

/-! ## Ways of a walk -/

/-- The actions of a walk, by the chain that its way leads to. -/
theorem walkActions_eq (resultKey : String) (request : Request) :
    walkActions resultKey request = (do
      let anchor ← request.onlyValue .notOneAnchor
      let chain ← (Options.relations (request.options.get? "via") "via").map (chainTo resultKey)
      Options.requireMap (Options.compact request.options) "conditions"
      let id ← anchorId anchor
      return [⟨.ancestors, walkOptions resultKey request.options id chain⟩]) := by
  unfold walkActions
  cases request.onlyValue .notOneAnchor with
  | error fault => rfl
  | ok anchor => cases Options.relations (request.options.get? "via") "via" <;> rfl

/-- A walk depends on its way only through the chain to the result that the way leads to. -/
theorem walkActions_way_congr (hsorted : request.options.Sorted) (resultKey : String) {way way' : Json}
    (h : (Options.relations (some way) "via").map (chainTo resultKey) =
      (Options.relations (some way') "via").map (chainTo resultKey)) :
    walkActions resultKey (request.withOption "via" way) =
      walkActions resultKey (request.withOption "via" way') := by
  have hasked : ∀ (way : Json) (name : String), "via" ≠ name →
      (Options.compact (request.options.insert "via" way)).get? name = request.options.asked name := by
    intro way name hname
    rw [Options.get?_compact (hsorted.insert ..), Options.asked, Options.unlessBlank,
      Fields.get?_insert_of_ne _ _ hname]
    rfl
  have hrest : ∀ way : Json, (Options.compact (request.options.insert "via" way)).erase "via" =
      (Options.compact request.options).erase "via" := by
    intro way
    refine ((Options.sorted_compact (hsorted.insert ..)).erase _).ext
      ((Options.sorted_compact hsorted).erase _) fun name => ?_
    rw [Fields.get?_erase, Fields.get?_erase]
    split
    · rfl
    · next hname => rw [hasked way name hname, Options.get?_compact hsorted]
  have hconditions : Options.requireMap (Options.compact (request.options.insert "via" way)) "conditions" =
      Options.requireMap (Options.compact (request.options.insert "via" way')) "conditions" :=
    Options.requireMap_congr ((hasked way _ (by decide)).trans (hasked way' _ (by decide)).symm)
  have hanchor : (request.withOption "via" way).onlyValue .notOneAnchor =
      (request.withOption "via" way').onlyValue .notOneAnchor := Request.onlyValue_congr ..
  rw [walkActions_eq, walkActions_eq, hanchor]
  simp only [Request.withOption, Fields.get?_insert_self, walkOptions, hrest, hconditions, h]

/-! ## Main statement -/

/-- What a request comes to, for every plan that an identifier compiles to and whatever names the options
and the map of a join use: if it is accepted, it is a first call of the plan's verb, in whose options the
plan's own parameters stand as the plan has them, and perhaps one that embeds the relations asked for. A
way by one name is the way by a list of it, and a chain that does not end in the relation to the result is
the chain with this relation behind it. -/
theorem actions_iff_calls {text : String} {intent : Intent} {adapter : Adapter}
    (hread : Identifier.read text = .query intent) (hplan : ofIntent intent adapter = .ok plan)
    (hsorted : request.options.Sorted) :
    (∀ actions, plan.actions request = .ok actions ↔
      ∃ first embedding, actions = first :: embedding ∧ Calls plan request first embedding) ∧
    (∀ actions, plan.actions request = .ok actions → actions.length = 1 ∨ actions.length = 2) ∧
    ∀ anchor resultKey, plan.kind = .walk anchor resultKey →
      (∀ name, name ≠ "" →
        plan.actions (request.withOption "via" (.string name)) =
          plan.actions (request.withOption "via" (ofNames [name]))) ∧
      ∀ via, via.getLast? ≠ some resultKey →
        plan.actions (request.withOption "via" (ofNames via)) =
          plan.actions (request.withOption "via" (ofNames (via ++ [resultKey]))) := by
  have hcalls : ∀ actions, plan.actions request = .ok actions ↔
      ∃ first embedding, actions = first :: embedding ∧ Calls plan request first embedding := by
    intro actions
    have hserves := serves_of_read hread hplan
    unfold Plan.actions
    -- Of the intent no more is needed than which kinds of plan go with which verb.
    generalize hverb : plan.verb = verb, hkind : plan.kind = kind, hmany : plan.isCollection = many
      at hserves
    cases hserves with
    | byField =>
      subst hmany
      exact lookupActions_eq_ok_iff hsorted hverb hkind
    | all => exact parameterlessActions_eq_ok_iff hverb hkind
    | fromAnchor => exact walkActions_eq_ok_iff hsorted hverb hkind
    | joinedWith => exact joinActions_eq_ok_iff hsorted hverb hkind
  refine ⟨hcalls, ?_, ?_⟩
  · intro actions hactions
    obtain ⟨first, embedding, rfl, h⟩ := (hcalls actions).1 hactions
    have hlength : embedding.length ≤ 1 := h.length_le
    rw [List.length_cons]
    omega
  · intro anchor resultKey hkind
    have hwalk : ∀ request, plan.actions request = walkActions resultKey request := by
      intro request
      rw [Plan.actions, hkind]
    simp only [hwalk]
    have hlisted : ∀ names, Options.relations (some (ofNames names)) "via" = .ok names :=
      fun names => Options.relations_eq_ok_iff.2 .names
    -- In both laws the two ways are listed differently, but lead to one chain.
    constructor
    · intro name hname
      refine walkActions_way_congr hsorted resultKey ?_
      rw [hlisted, Options.relations_eq_ok_iff.2 (.name hname)]
    · intro via hlast
      refine walkActions_way_congr hsorted resultKey ?_
      rw [hlisted, hlisted, Except.map, Except.map, ← leadsTo_iff.1 (.appended hlast),
        ← leadsTo_iff.1 .already]

def usersFromUser : Plan where
  identifier := "UsersFromUser"
  verb := .fromAnchor
  kind := .walk "user" "users"
  isCollection := true
  target := "users"
  table := "users"

def usersWalk (id : Json) (chain : List String) : Action :=
  ⟨.ancestors, [("id", id), ("result_key", .string "users"), ("via", ofNames chain)]⟩

theorem chain_eq_of_usersWalk {id : Json} {chain chain' : List String}
    (h : (.ok [usersWalk id chain] : Except Fault (List Action)) = .ok [usersWalk id chain']) :
    chain = chain' := by
  have hnames : chain.map Json.string = chain'.map Json.string := by
    simpa [usersWalk, ofNames] using h
  exact (List.map_inj_right fun _ _ hname => Json.string.inj hname).1 hnames

/-- A chain that ends in the relation to the result twice is not the chain that ends in it once, and a
blank name lists nothing while a list of a blank name lists that one. -/
theorem usersFromUser_ways_apart :
    let anchor : Request := ⟨[.number (.integer 1)], []⟩
    (∃ intent, Identifier.read "UsersFromUser" = .query intent ∧
      ofIntent intent Store.blog.adapter = .ok usersFromUser) ∧
    usersFromUser.actions (anchor.withOption "via" (ofNames ["users", "users"])) ≠
      usersFromUser.actions (anchor.withOption "via" (ofNames ["users"])) ∧
    usersFromUser.actions (anchor.withOption "via" (.string "")) ≠
      usersFromUser.actions (anchor.withOption "via" (ofNames [""])) := by
  intro anchor
  refine ⟨⟨_, rfl, rfl⟩, ?_, ?_⟩
  · intro h
    have hchain : ["users", "users"] = ["users"] := chain_eq_of_usersWalk h
    exact absurd hchain (by decide)
  · intro h
    have hchain : ["users"] = ["", "users"] := chain_eq_of_usersWalk h
    exact absurd hchain (by decide)

/-- A walk whose caller asks for another anchor and another result under their names. -/
theorem postsFromUser_keeps_parameters :
    let request : Request := ⟨[.number (.integer 1)], [("id", .number (.integer 3)),
      ("limit", .number (.integer 2)), ("result_key", .string "users"), ("via", .string "comments")]⟩
    ∃ options : Options, postsFromUser.actions request = .ok [⟨.ancestors, options⟩] ∧
      options.get? "id" = some (.number (.integer 1)) ∧
      options.get? "result_key" = some (.string "posts") ∧
      options.get? "via" = some (ofNames ["comments", "posts"]) ∧
      options.get? "limit" = some (.number (.integer 2)) := by
  intro request
  have hcompiled : ∃ intent, Identifier.read "PostsFromUser" = .query intent ∧
      ofIntent intent Store.blog.adapter = .ok postsFromUser := ⟨_, rfl, rfl⟩
  obtain ⟨intent, hread, hplan⟩ := hcompiled
  have hsorted : request.options.Sorted := by
    unfold Fields.Sorted
    decide
  obtain ⟨hcalls, _, _⟩ := actions_iff_calls hread hplan hsorted
  have haccepted : postsFromUser.actions request = .ok _ := rfl
  -- What the options hold is read off the call, not off their list.
  obtain ⟨first, embedding, hactions, h⟩ := (hcalls _).1 haccepted
  rw [hactions] at haccepted
  cases h with
  | ancestors _ hkind hvalue hid hvia hchain _ hholds =>
    cases hkind
    cases hvalue
    cases hid with
    | itself _ _ =>
      obtain rfl := leadsTo_iff.1 hchain
      have hlisted : Options.relations (some (.string "comments")) "via" = .ok _ :=
        Options.relations_eq_ok_iff.2 hvia
      cases hlisted
      refine ⟨_, haccepted, ?_, ?_, ?_, ?_⟩ <;> rw [hholds.get?_eq] <;> rfl
  | get _ hkind | search _ hkind | all _ hkind | join _ hkind => cases hkind

end Plan

end NamedQuery
