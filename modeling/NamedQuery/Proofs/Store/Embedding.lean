import Mathlib.Data.List.Forall2
import NamedQuery.Proofs.Store.Shape
import NamedQuery.Proofs.Store.Steps

/-! # What embedding adds

Embedding sets one field after another, each under the name of a relation. What one step leaves alone,
and what it sets, is carried along the list of relations (`get?_embed_of_notMem`,
`exists_get?_embed`), so a row that comes out is the row that went in, with related rows under the
names that were listed (`enriched_embed`). A call fails before it touches any row, if one of the names
is not declared. -/

namespace NamedQuery.Store

variable {store : Store} {table name : String} {names : List String} {options : Options}

/-! ## Listed names -/

/-- A call for embedding lists a name: alone, or among others; what is no name is passed over. -/
def Lists (options : Options) (name : String) : Prop :=
  options.get? "relations" = some (.string name) ∨
    ∃ items, options.get? "relations" = some (.array items) ∧ .string name ∈ items

theorem string?_eq_some_iff {value : Json} : value.string? = some name ↔ value = .string name := by
  cases value with
  | string s =>
    constructor
    · intro h
      cases h
      rfl
    · intro h
      cases h
      rfl
  | _ => exact ⟨nofun, nofun⟩

theorem mem_readRelations_iff : name ∈ readRelations options ↔ Lists options name := by
  unfold readRelations Lists
  cases options.get? "relations" with
  | none => simp
  | some value =>
    cases value with
    | array items => simp [List.mem_filterMap, string?_eq_some_iff]
    | string s => simp [eq_comm]
    | _ => simp

/-! ## Finding relations -/

theorem resolve_cons {rest : List String} {relation : Relation}
    (h : store.relation? table name = some relation) :
    resolve store table (name :: rest) = (resolve store table rest).map ((name, relation) :: ·) := by
  rw [resolve, h]
  rfl

/-- What is found for names is declared under them. -/
theorem relation?_of_resolve {relations : List (String × Relation)}
    (h : resolve store table names = .ok relations) :
    ∀ entry ∈ relations, store.relation? table entry.1 = some entry.2 := by
  induction names generalizing relations with
  | nil =>
    cases h
    exact nofun
  | cons name rest ih =>
    rw [resolve] at h
    cases hrelation : store.relation? table name with
    | none =>
      rw [hrelation] at h
      cases h
    | some relation =>
      rw [hrelation] at h
      obtain ⟨others, hothers, h⟩ := bind_eq_ok_iff.1 h
      cases h
      exact List.forall_mem_cons.2 ⟨hrelation, ih hothers⟩

/-- Names that are all declared are found, each in its place. -/
theorem exists_resolve_eq_ok (h : ∀ name ∈ names, store.relation? table name ≠ none) :
    ∃ relations, resolve store table names = .ok relations ∧ relations.map Prod.fst = names := by
  induction names with
  | nil => exact ⟨[], rfl, rfl⟩
  | cons name rest ih =>
    obtain ⟨hname, hrest⟩ := List.forall_mem_cons.1 h
    obtain ⟨relation, hrelation⟩ := Option.ne_none_iff_exists'.1 hname
    obtain ⟨relations, hresolve, hnames⟩ := ih hrest
    refine ⟨(name, relation) :: relations, ?_, congrArg (name :: ·) hnames⟩
    rw [resolve_cons hrelation, hresolve]
    rfl

/-- A name that is not declared is a problem, wherever it stands. -/
theorem exists_resolve_eq_error (hmem : name ∈ names) (h : store.relation? table name = none) :
    ∃ problem, resolve store table names = .error problem := by
  induction names with
  | nil => cases hmem
  | cons first rest ih =>
    cases hfirst : store.relation? table first with
    | none => exact ⟨.noAssociation table first, by rw [resolve, hfirst]⟩
    | some relation =>
      have hrest : name ∈ rest := by
        rcases List.mem_cons.1 hmem with rfl | hrest
        · exact absurd (hfirst.symm.trans h) (Option.some_ne_none relation)
        · exact hrest
      obtain ⟨problem, hproblem⟩ := ih hrest
      exact ⟨problem, by rw [resolve_cons hfirst, hproblem]; rfl⟩

/-! ## Embedding in a row -/

theorem embed_cons (name : String) (relation : Relation) (rest : List (String × Relation))
    (row : Row) :
    embed store ((name, relation) :: rest) row =
      embed store rest (row.insert name (embedded relation.kind (related store relation row))) := rfl

/-- Fields that are not listed are left alone. -/
theorem get?_embed_of_notMem {relations : List (String × Relation)} {field : String}
    (h : field ∉ relations.map Prod.fst) (row : Row) :
    (embed store relations row).get? field = row.get? field := by
  induction relations generalizing row with
  | nil => rfl
  | cons entry rest ih =>
    obtain ⟨name, relation⟩ := entry
    obtain ⟨hname, hrest⟩ := not_or.1 (mt List.mem_cons.2 h)
    rw [embed_cons, ih hrest, Fields.get?_insert_of_ne _ _ (Ne.symm hname)]

/-- Under a listed name there is in the end what its last step has set, from the row as it was
then. -/
theorem exists_get?_embed {relations : List (String × Relation)}
    (h : name ∈ relations.map Prod.fst) (row : Row) :
    ∃ relation source, (name, relation) ∈ relations ∧
      (embed store relations row).get? name =
        some (embedded relation.kind (related store relation source)) := by
  induction relations generalizing row with
  | nil => cases h
  | cons entry rest ih =>
    obtain ⟨first, relation⟩ := entry
    rw [embed_cons]
    by_cases hrest : name ∈ rest.map Prod.fst
    · obtain ⟨relation', source, hmem, hvalue⟩ := ih hrest
        (row.insert first (embedded relation.kind (related store relation row)))
      exact ⟨relation', source, List.mem_cons_of_mem _ hmem, hvalue⟩
    · obtain rfl : name = first := (List.mem_cons.1 h).resolve_right hrest
      refine ⟨relation, row, List.mem_cons_self .., ?_⟩
      rw [get?_embed_of_notMem hrest, Fields.get?_insert_self]

/-! ## Rows that come out -/

/-- A value that holds whole rows of the table of a relation: a list of some of them, in the order of
the table, or one of them or null. -/
inductive HoldsRows (store : Store) (relation : Relation) : Json → Prop where
  | many {rows : List Row} : relation.kind = .hasMany →
      rows.Sublist (store.rows relation.table) → HoldsRows store relation (.array (rows.map .object))
  | one {row : Row} : relation.kind = .belongsTo → row ∈ store.rows relation.table →
      HoldsRows store relation (.object row)
  | nothing : relation.kind = .belongsTo → HoldsRows store relation .null

/-- A row has kept all fields but the listed ones, and holds related rows under each of these. -/
structure Enriched (store : Store) (table : String) (listed : String → Prop) (x y : Row) : Prop where
  kept : ∀ field, ¬ listed field → y.get? field = x.get? field
  holds : ∀ name, listed name → ∃ relation value, store.relation? table name = some relation ∧
    y.get? name = some value ∧ HoldsRows store relation value

theorem holdsRows_embedded (store : Store) (relation : Relation) (row : Row) :
    HoldsRows store relation (embedded relation.kind (related store relation row)) := by
  have hsublist := related_sublist store relation row
  cases hkind : relation.kind with
  | hasMany => exact .many hkind hsublist
  | belongsTo =>
    cases hrelated : related store relation row with
    | nil => exact .nothing hkind
    | cons first rest =>
      refine .one hkind (hsublist.mem ?_)
      rw [hrelated]
      exact List.mem_cons_self ..

theorem enriched_embed {relations : List (String × Relation)}
    (hdeclared : ∀ entry ∈ relations, store.relation? table entry.1 = some entry.2)
    (row : Row) :
    Enriched store table (· ∈ relations.map Prod.fst) row (embed store relations row) where
  kept := fun field hfield => get?_embed_of_notMem hfield row
  holds := by
    intro name hname
    obtain ⟨relation, source, hmem, hvalue⟩ := exists_get?_embed hname row
    exact ⟨relation, _, hdeclared _ hmem, hvalue, holdsRows_embedded store relation source⟩

/-! ## Embedding in a selection -/

/-- Once the relations are found, they are embedded in every row, and the shape stays. -/
theorem exists_eagerLoad_eq_ok {relations : List (String × Relation)} {selection : Selection}
    (h : resolve store selection.tableName (readRelations options) = .ok relations) :
    ∃ next, eagerLoad store options selection = .ok next ∧ next.tableName = selection.tableName ∧
      next.isMany = selection.isMany ∧
      next.rows store = (selection.rows store).map (embed store relations) := by
  unfold eagerLoad
  rw [h]
  cases selection with
  | whole table | one table row | many table rows => exact ⟨_, rfl, rfl, rfl, rfl⟩

theorem exists_eagerLoad_eq_error {selection : Selection} {problem : Problem}
    (h : resolve store selection.tableName (readRelations options) = .error problem) :
    eagerLoad store options selection = .error problem := by
  unfold eagerLoad
  rw [h]
  rfl

theorem answer_eagerLoad (store : Store) (table : String) (earlier : List Call)
    (options : Options) :
    (store.session table).answer earlier (.act ⟨.eagerLoad, options⟩) =
      ((eagerLoad store options (store.selected table earlier)).map
        (Selection.answer store)).mapError Problem.failure := by
  have hanswer : (store.session table).answer earlier (.act ⟨.eagerLoad, options⟩) =
      answerOn store (store.selected table earlier) (.act ⟨.eagerLoad, options⟩) := rfl
  rw [hanswer, answerOn, perform, Move.answer_step]

theorem enriched_rows {relations : List (String × Relation)} (rows : List Row)
    (hnames : relations.map Prod.fst = readRelations options)
    (hdeclared : ∀ entry ∈ relations, store.relation? table entry.1 = some entry.2) :
    List.Forall₂ (Enriched store table (Lists options)) rows (rows.map (embed store relations)) := by
  have hlisted : (· ∈ relations.map Prod.fst) = Lists options := by
    funext name
    rw [hnames]
    exact propext mem_readRelations_iff
  rw [List.forall₂_map_right_iff, List.forall₂_same]
  intro row _
  rw [← hlisted]
  exact enriched_embed hdeclared row

/-! ## Main statement -/

/-- A call for embedding fails exactly if one of the names that it lists is not a relation of the table
that is selected from, and then it leaves what was selected. Else it answers in the shape of what was
selected, with a row for every row and in the same order, and each of them has only gained related rows
under the listed names. -/
theorem embedding_only_adds (store : Store) (table : String) (earlier : List Call)
    (options : Options) :
    let before := store.selected table earlier
    let result := (store.session table).answer earlier (.act ⟨.eagerLoad, options⟩)
    ((∃ failure, result = .error failure) ↔
      ∃ name, Lists options name ∧ store.relation? before.tableName name = none) ∧
    ((∃ failure, result = .error failure) →
      store.selected table (earlier ++ [.act ⟨.eagerLoad, options⟩]) = before) ∧
    ∀ answer, result = .ok answer → answer.isMany = before.isMany ∧
      List.Forall₂ (Enriched store before.tableName (Lists options)) (before.rows store)
        answer.rows := by
  intro before result
  have hresult : result = _ := answer_eagerLoad store table earlier options
  rw [hresult, selected_append_act, perform]
  -- All names are resolved before any row is touched, so one that is not declared changes nothing.
  by_cases hall : ∀ name ∈ readRelations options, store.relation? before.tableName name ≠ none
  · obtain ⟨relations, hresolve, hnames⟩ := exists_resolve_eq_ok hall
    obtain ⟨next, hnext, -, hshape, hrows⟩ := exists_eagerLoad_eq_ok hresolve
    rw [hnext]
    refine ⟨⟨?_, ?_⟩, ?_, fun answer hanswer => ?_⟩
    · rintro ⟨_, hfailed⟩
      cases hfailed
    · rintro ⟨name, hlists, hnone⟩
      exact absurd hnone (hall name (mem_readRelations_iff.2 hlists))
    · rintro ⟨_, hfailed⟩
      cases hfailed
    · cases hanswer
      rw [isMany_answer, rows_answer, hrows]
      exact ⟨hshape, enriched_rows _ hnames (relation?_of_resolve hresolve)⟩
  · obtain ⟨name, hname, hnone⟩ : ∃ name ∈ readRelations options,
        store.relation? before.tableName name = none := by
      simpa using hall
    obtain ⟨problem, hproblem⟩ := exists_resolve_eq_error hname hnone
    rw [exists_eagerLoad_eq_error hproblem]
    refine ⟨⟨fun _ => ⟨name, mem_readRelations_iff.1 hname, hnone⟩, fun _ => ⟨_, rfl⟩⟩, fun _ => rfl,
      fun answer hanswer => ?_⟩
    cases hanswer

/-- A user who is selected keeps all fields and gains the list of posts. -/
example : (blog.session "users").answer [.act ⟨.get, [("id", .number (.integer 3))]⟩]
      (.act ⟨.eagerLoad, [("relations", .string "posts")]⟩) =
    .ok (.one [("id", .number (.integer 3)),
      ("posts", .array [.object [("id", .number (.integer 12)), ("user_id", .number (.integer 3))]]),
      ("role", .string "author")]) := by
  rfl

end NamedQuery.Store
