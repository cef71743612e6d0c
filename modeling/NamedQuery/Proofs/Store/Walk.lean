import NamedQuery.Proofs.Store.Calls
import NamedQuery.Proofs.Store.Hop
import NamedQuery.Proofs.Store.Window

/-! # Walks along relations

`Walk` follows a list of relations by hops, and `Ancestors` is all that a walk from an anchor can
come to. Following relations takes such a walk (`walk_follow`), by induction on the names that are
left; the step is `hop_follows`.

The rows of the set in which a walk ends are those to which a path of related rows leads from the
anchor (`mem_last_iff_leads`). As long as a walk is at one row, it goes on to the first row that this
one refers to, so the paths do the same. -/

namespace NamedQuery.Store

/-! ## Walks -/

/-- Following relations, up to the first hop that fails. -/
inductive Walk (store : Store) : List String → Selection → Except Problem Selection → Prop where
  | done {selection : Selection} : Walk store [] selection (.ok selection)
  | hop {name : String} {rest : List String} {selection next : Selection}
      {outcome : Except Problem Selection} :
      Hop store name selection (.ok next) → Walk store rest next outcome →
      Walk store (name :: rest) selection outcome
  | stop {name : String} {rest : List String} {selection : Selection} {problem : Problem} :
      Hop store name selection (.error problem) →
      Walk store (name :: rest) selection (.error problem)

/-! ## Whole walks -/

def IdentifiedBy (id : Json) (row : Row) : Prop :=
  ∃ found, row.get? "id" = some found ∧ looselyEqual found id

/-- What becomes of where a walk has ended: one row has to meet the conditions, and a set is
searched. -/
inductive Finish (store : Store) (conditions : Fields Json) (ask : Ask) :
    Selection → Except Problem Answer → Prop where
  | met {table : String} {row : Row} :
      MeetsAll conditions row → Finish store conditions ask (.one table row) (.ok (.one row))
  | missed {table : String} {row : Row} :
      ¬ MeetsAll conditions row →
      Finish store conditions ask (.one table row) (.error (.noRow table))
  | shown {table : String} {rows kept shown : List Row} :
      WellFormedWindow ask → Kept (MeetsAll conditions) rows kept → Shows ask kept shown →
      Finish store conditions ask (.many table rows) (.ok (.many shown))
  | malformed {table : String} {rows : List Row} {problem : Problem} :
      ¬ WellFormedWindow ask → problem.kind = .backend →
      Finish store conditions ask (.many table rows) (.error problem)

/-- What a walk from the row of an `id` can come to. -/
inductive Ancestors (store : Store) (table : String) (id : Json) (names : List String)
    (conditions : Fields Json) (ask : Ask) : Except Problem Answer → Prop where
  | noAnchor : (∀ row ∈ store.rows table, ¬ IdentifiedBy id row) →
      Ancestors store table id names conditions ask (.error (.noRowWithId table id))
  | lost {anchor : Row} {problem : Problem} :
      First (IdentifiedBy id) (store.rows table) anchor →
      Walk store names (.one table anchor) (.error problem) →
      Ancestors store table id names conditions ask (.error problem)
  | ended {anchor : Row} {last : Selection} {answer : Except Problem Answer} :
      First (IdentifiedBy id) (store.rows table) anchor →
      Walk store names (.one table anchor) (.ok last) →
      Finish store conditions ask last answer →
      Ancestors store table id names conditions ask answer

/-! ## Paths -/

/-- A path of related rows, one step for each name. -/
inductive Path (store : Store) : String → Row → List String → Row → Prop where
  | stay {table : String} {x : Row} : Path store table x [] x
  | step {table name : String} {rest : List String} {relation : Relation} {x y z : Row} :
      store.relation? table name = some relation → Related store relation x y →
      Path store relation.table y rest z → Path store table x (name :: rest) z

/-- A path that goes to the first row that one refers to, until a relation leads to several rows. -/
inductive Leads (store : Store) : String → Row → List String → Row → Prop where
  | refers {table name : String} {rest : List String} {relation : Relation} {x y z : Row} :
      store.relation? table name = some relation → relation.kind = .belongsTo →
      First (Related store relation x) (store.rows relation.table) y →
      Leads store relation.table y rest z → Leads store table x (name :: rest) z
  | spreads {table name : String} {rest : List String} {relation : Relation} {x y z : Row} :
      store.relation? table name = some relation → relation.kind = .hasMany →
      Related store relation x y → Path store relation.table y rest z →
      Leads store table x (name :: rest) z

variable {store : Store}

/-! ## Many hops -/

/-- A walk has one end. -/
theorem Walk.unique {names : List String} {selection : Selection}
    {first second : Except Problem Selection} (h : Walk store names selection first)
    (h' : Walk store names selection second) : first = second := by
  induction h with
  | done =>
    cases h'
    rfl
  | hop hhop _ ih =>
    cases h' with
    | hop hhop' hrest =>
      cases hhop.unique hhop'
      exact ih hrest
    | stop hhop' => cases hhop.unique hhop'
  | stop hhop =>
    cases h' with
    | hop hhop' _ => cases hhop.unique hhop'
    | stop hhop' => exact hhop.unique hhop'

/-- Following relations is a walk. -/
theorem walk_follow (hzeros : store.NoNegativeZeros) (names : List String) {selection : Selection}
    (hselection : ∀ table, selection ≠ .whole table) :
    Walk store names selection (follow store names selection).outcome := by
  -- The call goes on from where a hop has led, so this is for any selection to start from.
  induction names generalizing selection with
  | nil => exact .done
  | cons name rest ih =>
    have hhop := hop_follows hzeros name hselection
    rw [follow, Move.outcome_andThen, Move.outcome_step]
    cases hnext : hop store name selection with
    | error problem =>
      rw [hnext] at hhop
      exact .stop hhop
    | ok next =>
      rw [hnext] at hhop
      exact .hop hhop (ih hhop.not_whole)

theorem Walk.not_whole {names : List String} {selection last : Selection}
    (h : Walk store names selection (.ok last)) (hselection : ∀ table, selection ≠ .whole table) :
    ∀ table, last ≠ .whole table := by
  generalize houtcome : Except.ok last = outcome at h
  induction h with
  | done =>
    cases houtcome
    exact hselection
  | hop hhop _ ih => exact ih hhop.not_whole houtcome
  | stop _ => cases houtcome

/-! ## The rows at the end -/

/-- A set reached from a set consists of the ends of paths. -/
theorem mem_last_iff_path {names : List String} {table last : String} {sources rows : List Row}
    (h : Walk store names (.many table sources) (.ok (.many last rows))) (z : Row) :
    z ∈ rows ↔ ∃ x ∈ sources, Path store table x names z := by
  -- On the names that are left, for any sources in any table.
  induction names generalizing table sources with
  | nil =>
    cases h
    constructor
    · intro hz
      exact ⟨z, hz, .stay⟩
    · rintro ⟨x, hx, hpath⟩
      cases hpath
      exact hx
  | cons name rest ih =>
    cases h with
    | hop hhop hrest =>
      cases hhop with
      | moves hrelation hreached =>
        rw [ih hrest]
        constructor
        · rintro ⟨y, hy, hpath⟩
          obtain ⟨x, hx, hrelated⟩ := (hreached.mem_iff y).1 hy
          exact ⟨x, hx, .step hrelation hrelated hpath⟩
        · rintro ⟨x, hx, hpath⟩
          cases hpath with
          | step hrelation' hrelated hpath =>
            obtain rfl := Option.some.inj (hrelation.symm.trans hrelation')
            exact ⟨_, (hreached.mem_iff _).2 ⟨x, hx, hrelated⟩, hpath⟩

/-- A walk from one row that ends in a set ends in the rows that the row leads to. -/
theorem mem_last_iff_leads {names : List String} {table last : String} {x : Row} {rows : List Row}
    (h : Walk store names (.one table x) (.ok (.many last rows))) (z : Row) :
    z ∈ rows ↔ Leads store table x names z := by
  induction names generalizing table x with
  | nil => cases h
  | cons name rest ih =>
    cases h with
    | hop hhop hrest =>
      cases hhop with
      | refers hrelation hkind hfirst =>
        -- The walk is still at one row, and the paths go to the same one.
        rw [ih hrest]
        constructor
        · intro hleads
          exact .refers hrelation hkind hfirst hleads
        · intro hleads
          cases hleads with
          | refers hrelation' _ hfirst' hleads =>
            obtain rfl := Option.some.inj (hrelation.symm.trans hrelation')
            rwa [hfirst.unique hfirst']
          | spreads hrelation' hkind' _ _ =>
            obtain rfl := Option.some.inj (hrelation.symm.trans hrelation')
            rw [hkind] at hkind'
            cases hkind'
      | spreads hrelation hkind hreached =>
        -- From here on the walk is at a set, and any related row will do.
        rw [mem_last_iff_path hrest]
        constructor
        · rintro ⟨y, hy, hpath⟩
          obtain ⟨w, hw, hrelated⟩ := (hreached.mem_iff y).1 hy
          obtain rfl := List.mem_singleton.1 hw
          exact .spreads hrelation hkind hrelated hpath
        · intro hleads
          cases hleads with
          | refers hrelation' hkind' _ _ =>
            obtain rfl := Option.some.inj (hrelation.symm.trans hrelation')
            rw [hkind] at hkind'
            cases hkind'
          | spreads hrelation' _ hrelated hpath =>
            obtain rfl := Option.some.inj (hrelation.symm.trans hrelation')
            exact ⟨_, (hreached.mem_iff _).2 ⟨x, List.mem_singleton_self x, hrelated⟩, hpath⟩

/-! ## The call -/

theorem mapM_string?_map (names : List String) :
    (names.map Json.string).mapM Json.string? = some names := by
  induction names with
  | nil => rfl
  | cons name rest ih => simp [Json.string?, ih]

theorem readVia_array {options : Options} {names : List String}
    (h : options.get? "via" = some (.array (names.map .string))) : readVia options = .ok names := by
  unfold readVia
  simp only [h, mapM_string?_map]

variable {table : String} {id : Json} {names : List String} {conditions : Fields Json}
  {options : Options}

theorem get_of_noAnchor (hid : options.get? "id" = some id)
    (h : ∀ row ∈ store.rows table, ¬ IdentifiedBy id row) :
    get store options (.whole table) = .error (.noRowWithId table id) := by
  have hfind : (store.rows table).find? (hasKey · "id" id) = none :=
    List.find?_eq_none.2 fun row hrow hkey => h row hrow (hasKey_iff.1 hkey)
  unfold get
  simp only [hid, Selection.rows, hfind, Selection.tableName]

theorem get_of_anchor (hid : options.get? "id" = some id) {row : Row}
    (hrow : row ∈ store.rows table) (h : IdentifiedBy id row) :
    ∃ anchor, First (IdentifiedBy id) (store.rows table) anchor ∧
      get store options (.whole table) = .ok (.one table anchor) := by
  have hsome : ((store.rows table).find? (hasKey · "id" id)).isSome :=
    List.find?_isSome.2 ⟨row, hrow, hasKey_iff.2 h⟩
  obtain ⟨anchor, hanchor⟩ := Option.isSome_iff_exists.1 hsome
  refine ⟨anchor, first_of_find? (fun _ => hasKey_iff) hanchor, ?_⟩
  unfold get
  simp only [hid, Selection.rows, hanchor, Selection.tableName]

/-- The options of a walk are applied to where it has ended. -/
theorem finish_finishWalk (hconditions : ConditionsIn (options.get? "conditions") conditions)
    {last : Selection} (hlast : ∀ table, last ≠ .whole table) :
    Finish store conditions options.get? last
      ((finishWalk store options last).map (Selection.answer store)) := by
  cases last with
  | whole table => exact absurd rfl (hlast table)
  | one table row =>
    -- One row is not put into a window: the conditions keep it or lose it.
    unfold finishWalk
    simp only [readConditions_of_conditionsIn hconditions]
    show Finish store conditions options.get? (.one table row) (Except.map _ (if _ then _ else _))
    by_cases hmeets : satisfiesAll conditions row
    · rw [if_pos hmeets]
      exact .met (satisfiesAll_iff_meetsAll.1 hmeets)
    · rw [if_neg hmeets]
      exact .missed fun h => hmeets (satisfiesAll_iff_meetsAll.2 h)
  | many table rows =>
    show Finish store conditions options.get? (.many table rows)
      ((findAll store options (.many table rows)).map _)
    by_cases hwindow : WellFormedWindow options.get?
    · obtain ⟨kept, shown, hkept, hshows, hfound⟩ :=
        findAll_of_wellFormed store (.many table rows) hconditions hwindow
      rw [hfound]
      exact .shown hwindow hkept hshows
    · obtain ⟨problem, hproblem, hbackend⟩ :=
        findAll_of_malformed store (.many table rows) hconditions hwindow
      rw [hproblem]
      exact .malformed hwindow hbackend

/-- The answer of the call, one step after another. -/
theorem answer_ancestors (hvia : options.get? "via" = some (.array (names.map .string))) :
    (ancestors store options (.whole table)).answer store =
      (get store options (.whole table)).bind fun anchor =>
        (follow store names anchor).outcome.bind fun last =>
          (finishWalk store options last).map (Selection.answer store) := by
  rw [Move.answer_eq, ancestors, Move.outcome_andThen, Move.outcome_step, readVia_array hvia]
  simp only [Move.outcome_andThen, Move.outcome_step]
  cases get store options (.whole table) with
  | error problem => rfl
  | ok anchor =>
    show ((follow store names anchor).outcome.bind _).map _ =
      (follow store names anchor).outcome.bind _
    cases (follow store names anchor).outcome <;> rfl

theorem ancestors_answer (hzeros : store.NoNegativeZeros) (hid : options.get? "id" = some id)
    (hvia : options.get? "via" = some (.array (names.map .string)))
    (hconditions : ConditionsIn (options.get? "conditions") conditions) :
    Ancestors store table id names conditions options.get?
      ((ancestors store options (.whole table)).answer store) := by
  rw [answer_ancestors hvia]
  by_cases hanchor : ∃ row ∈ store.rows table, IdentifiedBy id row
  · obtain ⟨row, hrow, hidentified⟩ := hanchor
    obtain ⟨anchor, hfirst, hget⟩ := get_of_anchor hid hrow hidentified
    rw [hget]
    show Ancestors _ _ _ _ _ _ ((follow store names (.one table anchor)).outcome.bind _)
    have hwalk : Walk store names (.one table anchor)
        (follow store names (.one table anchor)).outcome := walk_follow hzeros names nofun
    cases houtcome : (follow store names (.one table anchor)).outcome with
    | error problem =>
      rw [houtcome] at hwalk
      exact .lost hfirst hwalk
    | ok last =>
      rw [houtcome] at hwalk
      exact .ended hfirst hwalk (finish_finishWalk hconditions (hwalk.not_whole nofun))
  · rw [get_of_noAnchor hid fun row hrow h => hanchor ⟨row, hrow, h⟩]
    exact .noAnchor fun row hrow h => hanchor ⟨row, hrow, h⟩

/-- What the call `ancestors` answers in a new session, and which rows the set consists of in which
its walk ends. -/
theorem ancestors_reach (hzeros : store.NoNegativeZeros) (hid : options.get? "id" = some id)
    (hvia : options.get? "via" = some (.array (names.map .string)))
    (hconditions : ConditionsIn (options.get? "conditions") conditions) :
    (∃ answer, Ancestors store table id names conditions options.get? answer ∧
      (store.session table).reply [] ⟨.ancestors, options⟩ = answer.mapError Problem.failure) ∧
    ∀ anchor last rows, Walk store names (.one table anchor) (.ok (.many last rows)) →
      ∀ row, row ∈ rows ↔ Leads store table anchor names row := by
  refine ⟨⟨_, ancestors_answer hzeros hid hvia hconditions, rfl⟩, ?_⟩
  intro anchor last rows hwalk row
  exact mem_last_iff_leads hwalk row

/-- The comments stand in the order of the posts that they are on. -/
example : (blog.session "users").reply [] ⟨.ancestors, [("id", .string "1"),
      ("via", .array [.string "posts", .string "comments"])]⟩ =
    .ok (.many [[("id", .number (.integer 21)), ("post_id", .number (.integer 10))],
      [("id", .number (.integer 20)), ("post_id", .number (.integer 11))]]) := by
  rfl

/-- The comments on the posts of the first user, in their order. -/
theorem blog_ancestors_reach :
    let options : Options := Fields.ofList [("id", .string "1"), ("order", .string "id"),
      ("via", .array [.string "posts", .string "comments"])]
    (∃ answer, Ancestors blog "users" (.string "1") ["posts", "comments"] [] options.get? answer ∧
      (blog.session "users").reply [] ⟨.ancestors, options⟩ = answer.mapError Problem.failure) ∧
    ∀ anchor last rows, Walk blog ["posts", "comments"] (.one "users" anchor) (.ok (.many last rows)) →
      ∀ row, row ∈ rows ↔ Leads blog "users" anchor ["posts", "comments"] row :=
  ancestors_reach noNegativeZeros_blog rfl rfl (.none (.inl rfl))

end NamedQuery.Store
