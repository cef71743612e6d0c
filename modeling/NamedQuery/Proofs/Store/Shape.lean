import NamedQuery.Proofs.Store.Walk
import NamedQuery.Proofs.Yields

/-! # The shape of what calls select

A selection is one row or many. Each call that fetches rows has one of the two shapes whatever its
options are, and embedding keeps the shape of what was fetched (`yields_performEach`). Such calls
fail in the ordinary way, or, if they are for one row, because there is none. The shape of a walk
depends on its relations: it ends in one row exactly if all of them belong to one
(`isMany_ancestors_iff`). -/

namespace NamedQuery

def Answer.isMany : Answer → Bool
  | one _ => false
  | many _ => true

/-- The calls that fetch rows of their own, and whether they fetch many. -/
def ActionName.fetches? : ActionName → Option Bool
  | get | findFirst => some false
  | findAll | join => some true
  | ancestors | eagerLoad => none

/-- A call that fetches rows, and calls that embed others in them. -/
inductive Fetching (many : Bool) : List Action → Prop where
  | intro {first : Action} {rest : List Action} : first.name.fetches? = some many →
      (∀ action ∈ rest, action.name = .eagerLoad) → Fetching many (first :: rest)

namespace Store

/-- A whole table counts as many rows. -/
def Selection.isMany : Selection → Bool
  | one _ _ => false
  | whole _ | many _ _ => true

@[simp] theorem isMany_answer (store : Store) (selection : Selection) :
    (selection.answer store).isMany = selection.isMany := by
  cases selection <;> rfl

/-- The problems of a call for one row or for many: only one row can be missing. -/
def Lacks (many : Bool) (problem : Problem) : Prop :=
  problem.kind = .backend ∨ many = false ∧ problem.kind = .notFound

variable {store : Store} {many : Bool}

/-! ## Reading options -/

theorem yields_readConditions (options : Options) (name : String) :
    Yields (fun _ => True) (Lacks many) (readConditions options name) := by
  unfold readConditions
  split
  · exact .ok trivial
  · exact .ok trivial
  · exact .ok trivial
  · exact .error (.inl rfl)

theorem yields_readWindow (options : Options) :
    Yields (fun _ => True) (Lacks many) (readWindow options) := by
  by_cases hwindow : WellFormedWindow options.get?
  · obtain ⟨window, hread, _⟩ := readWindow_of_wellFormed hwindow
    rw [hread]
    exact .ok trivial
  · obtain ⟨problem, hread, hbackend⟩ := readWindow_of_malformed hwindow
    rw [hread]
    exact .error (.inl hbackend)

theorem yields_resolve (table : String) (names : List String) :
    Yields (fun _ => True) (Lacks many) (resolve store table names) := by
  induction names with
  | nil => exact .ok trivial
  | cons name rest ih =>
    rw [resolve]
    cases store.relation? table name with
    | none => exact .error (.inl rfl)
    | some relation => exact ih.bind fun _ _ => .ok trivial

/-! ## Fetching and embedding -/

/-- What is selected by `id` is one row of the table. -/
theorem get_ok {options : Options} {selection found : Selection}
    (h : get store options selection = .ok found) : ∃ row, found = .one selection.tableName row := by
  unfold get at h
  split at h
  · cases h
  · split at h
    · cases h
    · next row _ =>
      cases h
      exact ⟨row, rfl⟩

theorem yields_get (options : Options) (selection : Selection) :
    Yields (fun found => found.isMany = false) (Lacks false) (get store options selection) := by
  unfold get
  split
  · exact .error (.inl rfl)
  · split
    · exact .error (.inr ⟨rfl, rfl⟩)
    · exact .ok rfl

theorem yields_findAll (options : Options) (selection : Selection) :
    Yields (fun found => found.isMany = true) (Lacks many) (findAll store options selection) := by
  refine (yields_readConditions options "conditions").bind fun conditions _ => ?_
  refine (yields_readWindow options).bind fun window _ => ?_
  exact .ok rfl

theorem yields_first (selection : Selection) :
    Yields (fun found => found.isMany = false) (Lacks false) (first store selection) := by
  unfold first
  cases selection.rows store with
  | nil => exact .error (.inr ⟨rfl, rfl⟩)
  | cons row rest => exact .ok rfl

theorem yields_join (options : Options) (selection : Selection) :
    Yields (fun found => found.isMany = true) (Lacks many) (join store options selection) := by
  unfold join
  split
  · next name _ =>
    cases store.relation? selection.tableName name with
    | none => exact .error (.inl rfl)
    | some relation =>
      refine (yields_readConditions options "conditions").bind fun conditions _ => ?_
      have hkeep : ∀ rows, Yields (fun _ => True) (Lacks many)
          (keepJoined store relation options rows) := by
        intro rows
        unfold keepJoined
        split
        · exact .ok trivial
        · exact (yields_readConditions options "with_conditions").bind fun _ _ => .ok trivial
      refine (hkeep _).bind fun joined _ => ?_
      exact (yields_readWindow options).bind fun window _ => .ok rfl
  · exact .error (.inl rfl)

/-- Embedding keeps the shape. -/
theorem yields_eagerLoad (options : Options) {selection : Selection}
    (hselection : selection.isMany = many) :
    Yields (fun found => found.isMany = many) (Lacks many) (eagerLoad store options selection) := by
  refine (yields_resolve selection.tableName (readRelations options)).bind fun relations _ => ?_
  cases selection <;> exact .ok hselection

theorem yields_perform {action : Action} (h : action.name.fetches? = some many)
    (selection : Selection) :
    Yields (fun found => found.isMany = many) (Lacks many)
      (perform store action selection).outcome := by
  obtain ⟨name, options⟩ := action
  unfold perform
  cases name with
  | get =>
    cases h
    rw [Move.outcome_step]
    exact yields_get options selection
  | findFirst =>
    cases h
    rw [findFirst, Move.outcome_andThen, Move.outcome_step]
    refine (yields_findAll options selection).bind fun found _ => ?_
    rw [Move.outcome_step]
    exact yields_first found
  | findAll =>
    cases h
    rw [Move.outcome_step]
    exact yields_findAll options selection
  | join =>
    cases h
    rw [Move.outcome_step]
    exact yields_join options selection
  | ancestors | eagerLoad => cases h

theorem yields_performEach_eagerLoad {actions : List Action}
    (h : ∀ action ∈ actions, action.name = .eagerLoad) {selection : Selection}
    (hselection : selection.isMany = many) :
    Yields (fun found => found.isMany = many) (Lacks many) (performEach store actions selection) := by
  induction actions generalizing selection with
  | nil => exact .ok hselection
  | cons action rest ih =>
    obtain ⟨hfirst, hrest⟩ := List.forall_mem_cons.1 h
    have hcall : (perform store action selection).outcome =
        eagerLoad store action.options selection := by
      rw [perform, hfirst, Move.outcome_step]
    rw [performEach, hcall]
    exact (yields_eagerLoad action.options hselection).bind fun _ hfound => ih hrest hfound

/-- A call that fetches rows and calls that embed others in them select rows in the number that was
asked for. -/
theorem yields_performEach {actions : List Action} (h : Fetching many actions)
    (selection : Selection) :
    Yields (fun found => found.isMany = many) (Lacks many)
      (performEach store actions selection) := by
  obtain ⟨hfirst, hrest⟩ := h
  rw [performEach]
  refine (yields_perform hfirst selection).bind fun found hfound => ?_
  exact yields_performEach_eagerLoad hrest hfound

/-! ## Walks -/

/-- Every relation on the way is declared and leads from one row to one row. -/
inductive AllBelongTo (store : Store) : String → List String → Prop where
  | nil {table : String} : AllBelongTo store table []
  | cons {table name : String} {rest : List String} {relation : Relation} :
      store.relation? table name = some relation → relation.kind = .belongsTo →
      AllBelongTo store relation.table rest → AllBelongTo store table (name :: rest)

theorem allBelongTo_cons_iff {table name : String} {rest : List String} {relation : Relation}
    (hrelation : store.relation? table name = some relation) :
    AllBelongTo store table (name :: rest) ↔
      relation.kind = .belongsTo ∧ AllBelongTo store relation.table rest := by
  constructor
  · intro h
    cases h with
    | cons hfound hkind hrest =>
      obtain rfl := Option.some.inj (hrelation.symm.trans hfound)
      exact ⟨hkind, hrest⟩
  · rintro ⟨hkind, hrest⟩
    exact .cons hrelation hkind hrest

/-- A hop from one row goes by the kind of its relation. -/
theorem hop_one {table name : String} {row : Row} {next : Selection}
    (h : hop store name (.one table row) = .ok next) :
    ∃ relation, store.relation? table name = some relation ∧ next.tableName = relation.table ∧
      (next.isMany = false ↔ relation.kind = .belongsTo) := by
  unfold hop at h
  cases hrelation : store.relation? table name with
  | none =>
    simp only [Selection.tableName, hrelation] at h
    cases h
  | some relation =>
    simp only [Selection.tableName, hrelation] at h
    refine ⟨relation, rfl, ?_⟩
    cases hkind : relation.kind with
    | hasMany =>
      rw [hkind] at h
      cases h
      refine ⟨rfl, ?_⟩
      constructor <;> intro hone <;> cases hone
    | belongsTo =>
      rw [hkind] at h
      simp only [] at h
      split at h
      · cases h
      · cases h
        exact ⟨rfl, fun _ => rfl, fun _ => rfl⟩

theorem isMany_hop {name : String} {selection next : Selection}
    (hselection : selection.isMany = true) (h : hop store name selection = .ok next) :
    next.isMany = true := by
  unfold hop at h
  split at h
  · cases h
  · cases selection with
    | whole table => cases h
    | one table row => cases hselection
    | many table rows =>
      cases h
      rfl

theorem follow_cons_ok {name : String} {rest : List String} {selection last : Selection}
    (h : (follow store (name :: rest) selection).outcome = .ok last) :
    ∃ next, hop store name selection = .ok next ∧ (follow store rest next).outcome = .ok last := by
  rw [follow, Move.outcome_andThen, Move.outcome_step] at h
  cases hnext : hop store name selection with
  | error problem =>
    rw [hnext] at h
    cases h
  | ok next =>
    rw [hnext] at h
    exact ⟨next, rfl, h⟩

/-- A walk that is at many rows stays at many. -/
theorem isMany_follow {names : List String} {selection last : Selection}
    (hselection : selection.isMany = true)
    (h : (follow store names selection).outcome = .ok last) : last.isMany = true := by
  induction names generalizing selection with
  | nil =>
    cases h
    exact hselection
  | cons name rest ih =>
    obtain ⟨next, hnext, hrest⟩ := follow_cons_ok h
    exact ih (isMany_hop hselection hnext) hrest

/-- A walk from one row ends in one row exactly if all of its relations belong to one. -/
theorem isMany_follow_iff {names : List String} {table : String} {row : Row} {last : Selection}
    (h : (follow store names (.one table row)).outcome = .ok last) :
    last.isMany = false ↔ AllBelongTo store table names := by
  -- On the names that are left: the next row, if there is just one, stands for the first.
  induction names generalizing table row with
  | nil =>
    cases h
    exact ⟨fun _ => .nil, fun _ => rfl⟩
  | cons name rest ih =>
    obtain ⟨next, hnext, hrest⟩ := follow_cons_ok h
    obtain ⟨relation, hrelation, htable, hkind⟩ := hop_one hnext
    rw [allBelongTo_cons_iff hrelation, ← hkind, ← htable]
    cases next with
    | one table row =>
      have hone := ih hrest
      exact ⟨fun hlast => ⟨rfl, hone.1 hlast⟩, fun h => hone.2 h.2⟩
    | whole _ | many _ _ =>
      -- From here on the walk is at many rows, and one of its relations has led there.
      have hmany : last.isMany = true := isMany_follow rfl hrest
      exact ⟨fun hlast => absurd (hmany.symm.trans hlast) nofun, fun h => absurd h.1 nofun⟩

/-- The options of a walk do not change its shape. -/
theorem isMany_finishWalk {options : Options} {selection last : Selection}
    (h : finishWalk store options selection = .ok last) : last.isMany = selection.isMany := by
  cases selection with
  | whole table =>
    cases h
    rfl
  | one table row =>
    obtain ⟨conditions, _, h⟩ := bind_eq_ok_iff.1 h
    split at h
    · cases h
      rfl
    · cases h
  | many table rows =>
    have hfound : Yields (fun found => found.isMany = true) (Lacks true)
        (finishWalk store options (.many table rows)) := yields_findAll options (.many table rows)
    rw [h] at hfound
    exact hfound.of_ok

/-- The answer of a walk along relations is one row exactly if all of them belong to one. -/
theorem isMany_ancestors_iff {options : Options} {names : List String} {table : String}
    {answer : Answer} (hvia : options.get? "via" = some (.array (names.map .string)))
    (h : (ancestors store options (.whole table)).answer store = .ok answer) :
    answer.isMany = false ↔ AllBelongTo store table names := by
  rw [answer_ancestors hvia] at h
  obtain ⟨anchor, hanchor, hwalk⟩ := bind_eq_ok_iff.1 h
  obtain ⟨last, hfollow, hanswer⟩ := bind_eq_ok_iff.1 hwalk
  obtain ⟨row, rfl⟩ := get_ok hanchor
  cases hfinish : finishWalk store options last with
  | error problem =>
    rw [hfinish] at hanswer
    cases hanswer
  | ok finished =>
    rw [hfinish] at hanswer
    cases hanswer
    rw [isMany_answer, isMany_finishWalk hfinish]
    exact isMany_follow_iff hfollow

end Store

end NamedQuery
