import NamedQuery.Proofs.Identifier.Grammar
import NamedQuery.Proofs.Plan.Options

/-! # The kinds of plans

What is known of a plan from the intent it was made for. `Serves` says which kind of plan each verb
has, and how many records such a plan returns. -/

namespace NamedQuery.Plan

variable {intent : Intent} {adapter : Adapter} {plan : Plan}

/-- A plan keeps the identifier and the verb that it was made for. -/
def Named (intent : Intent) (plan : Plan) : Prop :=
  plan.identifier = intent.identifier ∧ plan.verb = intent.verb

theorem lookup_ok (h : lookup intent adapter = .ok plan) :
    Named intent plan ∧ plan.kind = .lookup intent.key (intent.verb = .all) ∧
      plan.isCollection = Inflection.isPlural intent.entity ∧
      plan.target = Inflection.underscore (Inflection.singularize intent.entity) := by
  obtain ⟨table, _, h⟩ := bind_eq_ok_iff.1 h
  cases h
  exact ⟨⟨rfl, rfl⟩, rfl, rfl, rfl⟩

theorem walk_ok (h : walk intent adapter = .ok plan) :
    Named intent plan ∧
      ∃ anchor, plan.kind = .walk anchor (Inflection.underscore intent.entity) := by
  unfold walk at h
  cases hkey : intent.key with
  | none =>
    rw [hkey] at h
    cases h
  | some key =>
    rw [hkey] at h
    obtain ⟨key', _, h⟩ := bind_eq_ok_iff.1 h
    obtain ⟨table, _, h⟩ := bind_eq_ok_iff.1 h
    cases h
    exact ⟨⟨rfl, rfl⟩, _, rfl⟩

theorem join_ok (h : join intent adapter = .ok plan) :
    Named intent plan ∧ (∃ base key, plan.kind = .join base key) ∧ plan.isCollection = true ∧
      plan.target = Inflection.underscore intent.entity := by
  unfold join at h
  cases hkey : intent.key with
  | none =>
    rw [hkey] at h
    cases h
  | some key =>
    rw [hkey] at h
    obtain ⟨key', _, h⟩ := bind_eq_ok_iff.1 h
    obtain ⟨table, _, h⟩ := bind_eq_ok_iff.1 h
    cases h
    exact ⟨⟨rfl, rfl⟩, ⟨_, _, rfl⟩, rfl, rfl⟩

theorem named_of_ofIntent (h : ofIntent intent adapter = .ok plan) : Named intent plan := by
  unfold ofIntent at h
  cases hverb : intent.verb with
  | byField | all =>
    rw [hverb] at h
    exact (lookup_ok h).1
  | fromAnchor =>
    rw [hverb] at h
    exact (walk_ok h).1
  | joinedWith =>
    rw [hverb] at h
    exact (join_ok h).1

/-- Only a plural is read as an identifier for all records. -/
theorem isPlural_of_read_all {text : String} (hread : Identifier.read text = .query intent)
    (hverb : intent.verb = .all) : Inflection.isPlural intent.entity := by
  have hgrammar := Identifier.grammar_read text
  rw [hread] at hgrammar
  cases hgrammar with
  | all _ _ _ hplural _ => exact hplural
  | verb _ _ _ htoken _ => cases htoken <;> cases hverb

/-- The kinds of plans for each verb, and whether they return many. -/
inductive Serves : Verb → Kind → Bool → Prop where
  | byField {field : Option String} {many : Bool} : Serves .byField (.lookup field false) many
  | all {field : Option String} : Serves .all (.lookup field true) true
  | fromAnchor {anchor resultKey : String} {many : Bool} :
      Serves .fromAnchor (.walk anchor resultKey) many
  | joinedWith {base key : String} : Serves .joinedWith (.join base key) true

theorem Serves.walk_of_fromAnchor {verb : Verb} {kind : Kind} {many : Bool}
    (h : Serves verb kind many) (hverb : verb = .fromAnchor) :
    ∃ anchor resultKey, kind = .walk anchor resultKey := by
  cases h with
  | fromAnchor => exact ⟨_, _, rfl⟩
  | byField | all | joinedWith => cases hverb

theorem serves_of_read {text : String} (hread : Identifier.read text = .query intent)
    (hplan : ofIntent intent adapter = .ok plan) : Serves plan.verb plan.kind plan.isCollection := by
  rw [(named_of_ofIntent hplan).2]
  unfold ofIntent at hplan
  cases hverb : intent.verb with
  | byField =>
    rw [hverb] at hplan
    obtain ⟨_, hkind, _⟩ := lookup_ok hplan
    rw [hkind, hverb]
    exact .byField
  | all =>
    rw [hverb] at hplan
    obtain ⟨_, hkind, hmany, _⟩ := lookup_ok hplan
    rw [hkind, hmany, isPlural_of_read_all hread hverb, hverb]
    exact .all
  | fromAnchor =>
    rw [hverb] at hplan
    obtain ⟨_, anchor, hkind⟩ := walk_ok hplan
    rw [hkind]
    exact .fromAnchor
  | joinedWith =>
    rw [hverb] at hplan
    obtain ⟨_, ⟨base, key, hkind⟩, hmany, _⟩ := join_ok hplan
    rw [hkind, hmany]
    exact .joinedWith

/-- The plan of a query for all records returns many. -/
theorem isCollection_of_all {text : String} (hread : Identifier.read text = .query intent)
    (hplan : ofIntent intent adapter = .ok plan) {field : Option String}
    (hkind : plan.kind = .lookup field true) : plan.isCollection = true := by
  have hserves := serves_of_read hread hplan
  rw [hkind] at hserves
  generalize plan.verb = verb, plan.isCollection = many at hserves
  cases hserves
  rfl

/-- The plan of a join returns many. -/
theorem isCollection_of_join (hplan : ofIntent intent adapter = .ok plan) {base key : String}
    (hkind : plan.kind = .join base key) : plan.isCollection = true := by
  unfold ofIntent at hplan
  cases hverb : intent.verb with
  | joinedWith =>
    rw [hverb] at hplan
    exact (join_ok hplan).2.2.1
  | fromAnchor =>
    rw [hverb] at hplan
    obtain ⟨_, _, hwalk⟩ := walk_ok hplan
    rw [hkind] at hwalk
    cases hwalk
  | byField | all =>
    rw [hverb] at hplan
    have hlookup := (lookup_ok hplan).2.1
    rw [hkind] at hlookup
    cases hlookup

end NamedQuery.Plan
