import Mathlib.Data.Fintype.EquivFin
import NamedQuery.Proofs.Fields
import NamedQuery.Proofs.Store.Join
import NamedQuery.Proofs.Store.Steps
import NamedQuery.Proofs.Yields

/-! # What failing calls leave behind

A call of one step that fails leaves what was selected before. `findFirst` and `ancestors` are made of
several steps, and one that fails leaves what the steps before it have selected (`Leaves`). This can
be noticed later unless it is what was selected before, where a whole table is no other than the list
of all its rows (`answers_iff_spelled`). -/

namespace NamedQuery.Store

variable {store : Store}

/-! ## Failing steps -/

def firstStep (store : Store) (action : Action) (selection : Selection) :
    Except Problem Selection :=
  match action.name with
  | .get | .ancestors => get store action.options selection
  | .findFirst | .findAll => findAll store action.options selection
  | .join => join store action.options selection
  | .eagerLoad => eagerLoad store action.options selection

/-- The problem of a call that fails, and what the call leaves selected. -/
inductive Leaves (store : Store) (before : Selection) : Action → Problem → Selection → Prop where
  /-- The first step fails. -/
  | atOnce {action : Action} {problem : Problem} : firstStep store action before = .error problem →
      Leaves store before action problem before
  /-- No row matches: the rows that match are selected, and there are none. -/
  | noRow {options : Options} {table : String} :
      findAll store options before = .ok (.many table []) →
      Leaves store before ⟨.findFirst, options⟩ (.noRow table) (.many table [])
  /-- The row to walk from is selected, and the way cannot be read. -/
  | badVia {options : Options} {anchor : Selection} {problem : Problem} :
      get store options before = .ok anchor → readVia options = .error problem →
      Leaves store before ⟨.ancestors, options⟩ problem anchor
  /-- The first relations of the way are followed, and the next one leads nowhere. -/
  | lost {options : Options} {anchor here : Selection} {taken rest : List String} {name : String}
      {problem : Problem} : get store options before = .ok anchor →
      readVia options = .ok (taken ++ name :: rest) →
      (follow store taken anchor).outcome = .ok here → hop store name here = .error problem →
      Leaves store before ⟨.ancestors, options⟩ problem here
  /-- The whole way is followed, and its end does not pass the options. -/
  | unfinished {options : Options} {anchor last : Selection} {names : List String}
      {problem : Problem} : get store options before = .ok anchor →
      readVia options = .ok names → (follow store names anchor).outcome = .ok last →
      finishWalk store options last = .error problem →
      Leaves store before ⟨.ancestors, options⟩ problem last

theorem Move.step_failed_iff {selection after : Selection} {next : Except Problem Selection}
    {problem : Problem} :
    Move.step selection next = ⟨after, some problem⟩ ↔
      next = .error problem ∧ after = selection := by
  cases next with
  | error found =>
    constructor
    · intro h
      cases h
      exact ⟨rfl, rfl⟩
    · rintro ⟨h, rfl⟩
      cases h
      rfl
  | ok found => exact ⟨nofun, nofun⟩

/-- A series of steps has failed if its beginning has, or else what comes after it. -/
theorem Move.andThen_failed_iff {move : Move} {next : Selection → Move} {after : Selection}
    {problem : Problem} :
    move.andThen next = ⟨after, some problem⟩ ↔
      move = ⟨after, some problem⟩ ∨
        ∃ selection, move.outcome = .ok selection ∧ next selection = ⟨after, some problem⟩ := by
  obtain ⟨selection, found⟩ := move
  cases found with
  | some found =>
    constructor
    · exact .inl
    · rintro (h | ⟨_, h, _⟩)
      · exact h
      · cases h
  | none =>
    constructor
    · intro h
      exact .inr ⟨selection, rfl, h⟩
    · rintro (h | ⟨_, h, hnext⟩)
      · cases h
      · cases h
        exact hnext

theorem follow_failed_iff {names : List String} {selection here : Selection} {problem : Problem} :
    follow store names selection = ⟨here, some problem⟩ ↔
      ∃ taken name rest, names = taken ++ name :: rest ∧
        (follow store taken selection).outcome = .ok here ∧ hop store name here = .error problem := by
  induction names generalizing selection with
  | nil =>
    constructor
    · exact nofun
    · rintro ⟨taken, name, rest, hnames, _⟩
      cases taken <;> cases hnames
  | cons first names ih =>
    rw [follow, Move.andThen_failed_iff, Move.step_failed_iff, Move.outcome_step]
    -- The hop that fails is the first one, or the first one is taken and it is among the rest.
    constructor
    · rintro (⟨hhop, rfl⟩ | ⟨next, hhop, hrest⟩)
      · exact ⟨[], first, names, rfl, rfl, hhop⟩
      · obtain ⟨taken, name, rest, rfl, htaken, hlost⟩ := ih.1 hrest
        refine ⟨first :: taken, name, rest, rfl, ?_, hlost⟩
        rw [follow, Move.outcome_andThen, Move.outcome_step, hhop]
        exact htaken
    · rintro ⟨taken, name, rest, hnames, htaken, hlost⟩
      cases taken with
      | nil =>
        cases hnames
        cases htaken
        exact .inl ⟨hlost, rfl⟩
      | cons _ taken =>
        cases hnames
        rw [follow, Move.outcome_andThen, Move.outcome_step] at htaken
        cases hhop : hop store first selection with
        | error found =>
          rw [hhop] at htaken
          cases htaken
        | ok next =>
          rw [hhop] at htaken
          exact .inr ⟨next, rfl, ih.2 ⟨taken, name, rest, rfl, htaken, hlost⟩⟩

theorem first_failed_iff {selection : Selection} {problem : Problem} :
    first store selection = .error problem ↔
      selection.rows store = [] ∧ problem = .noRow selection.tableName := by
  unfold first
  cases selection.rows store with
  | nil =>
    constructor
    · intro h
      cases h
      exact ⟨rfl, rfl⟩
    · rintro ⟨_, rfl⟩
      rfl
  | cons row rest => exact ⟨nofun, nofun⟩

/-- What is selected by conditions is a list of rows. -/
theorem findAll_ok {options : Options} {selection found : Selection}
    (h : findAll store options selection = .ok found) :
    ∃ rows, found = .many selection.tableName rows := by
  obtain ⟨conditions, _, hwindow⟩ := bind_eq_ok_iff.1 h
  obtain ⟨window, _, hfound⟩ := bind_eq_ok_iff.1 hwindow
  cases hfound
  exact ⟨_, rfl⟩

theorem findFirst_failed_iff {options : Options} {before after : Selection} {problem : Problem} :
    findFirst store options before = ⟨after, some problem⟩ ↔
      Leaves store before ⟨.findFirst, options⟩ problem after := by
  rw [findFirst, Move.andThen_failed_iff, Move.step_failed_iff, Move.outcome_step]
  constructor
  · rintro (⟨hfind, rfl⟩ | ⟨found, hfind, hfirst⟩)
    · exact .atOnce hfind
    · obtain ⟨hfirst, rfl⟩ := Move.step_failed_iff.1 hfirst
      obtain ⟨hrows, rfl⟩ := first_failed_iff.1 hfirst
      obtain ⟨rows, rfl⟩ := findAll_ok hfind
      cases hrows
      exact .noRow hfind
  · intro h
    cases h with
    | atOnce hfind => exact .inl ⟨hfind, rfl⟩
    | noRow hfind => exact .inr ⟨_, hfind, rfl⟩

theorem ancestors_failed_iff {options : Options} {before after : Selection} {problem : Problem} :
    ancestors store options before = ⟨after, some problem⟩ ↔
      Leaves store before ⟨.ancestors, options⟩ problem after := by
  rw [ancestors, Move.andThen_failed_iff, Move.step_failed_iff, Move.outcome_step]
  constructor
  · rintro (⟨hget, rfl⟩ | ⟨anchor, hget, hwalk⟩)
    · exact .atOnce hget
    · cases hvia : readVia options with
      | error found =>
        rw [hvia] at hwalk
        cases hwalk
        exact .badVia hget hvia
      | ok names =>
        rw [hvia] at hwalk
        obtain hlost | ⟨last, hlast, hfinish⟩ := Move.andThen_failed_iff.1 hwalk
        · obtain ⟨taken, name, rest, rfl, htaken, hhop⟩ := follow_failed_iff.1 hlost
          exact .lost hget hvia htaken hhop
        · obtain ⟨hfinish, rfl⟩ := Move.step_failed_iff.1 hfinish
          exact .unfinished hget hvia hlast hfinish
  · intro h
    cases h with
    | atOnce hget => exact .inl ⟨hget, rfl⟩
    | badVia hget hvia =>
      refine .inr ⟨_, hget, ?_⟩
      rw [hvia]
    | lost hget hvia htaken hhop =>
      refine .inr ⟨_, hget, ?_⟩
      rw [hvia]
      exact Move.andThen_failed_iff.2 (.inl (follow_failed_iff.2 ⟨_, _, _, rfl, htaken, hhop⟩))
    | unfinished hget hvia hlast hfinish =>
      refine .inr ⟨_, hget, ?_⟩
      rw [hvia]
      exact Move.andThen_failed_iff.2 (.inr ⟨_, hlast, Move.step_failed_iff.2 ⟨hfinish, rfl⟩⟩)

/-- A call of one step leaves what was selected before. -/
theorem Leaves.unchanged {before after : Selection} {action : Action} {problem : Problem}
    (h : Leaves store before action problem after) (hfirst : action.name ≠ .findFirst)
    (hwalk : action.name ≠ .ancestors) : after = before := by
  cases h with
  | atOnce => rfl
  | noRow => exact absurd rfl hfirst
  | badVia | lost | unfinished => exact absurd rfl hwalk

/-- A call fails in just the ways of `Leaves`. -/
theorem perform_failed_iff {action : Action} {before after : Selection} {problem : Problem} :
    perform store action before = ⟨after, some problem⟩ ↔
      Leaves store before action problem after := by
  -- All calls but two are one step, which fails before it selects anything.
  have hone : action.name ≠ .findFirst → action.name ≠ .ancestors →
      (Move.step before (firstStep store action before) = ⟨after, some problem⟩ ↔
        Leaves store before action problem after) := by
    intro hfirst hwalk
    rw [Move.step_failed_iff]
    constructor
    · rintro ⟨hstep, rfl⟩
      exact .atOnce hstep
    · intro h
      obtain rfl := h.unchanged hfirst hwalk
      cases h with
      | atOnce hstep => exact ⟨hstep, rfl⟩
      | noRow => exact absurd rfl hfirst
      | badVia | lost | unfinished => exact absurd rfl hwalk
  obtain ⟨name, options⟩ := action
  cases name with
  | findFirst => exact findFirst_failed_iff
  | ancestors => exact ancestors_failed_iff
  | get | findAll | join | eagerLoad => exact hone nofun nofun

/-! ## What later calls notice -/

/-- A selection with a whole table spelled out as the list of its rows. -/
def Selection.spelled (store : Store) : Selection → Selection
  | whole table => many table (store.rows table)
  | one table row => one table row
  | many table rows => many table rows

def Move.spelled (store : Store) (move : Move) : Move :=
  ⟨move.selection.spelled store, move.problem⟩

theorem Selection.spelled_spelled (selection : Selection) :
    (selection.spelled store).spelled store = selection.spelled store := by
  cases selection <;> rfl

theorem Move.spelled_step (selection : Selection) (next : Except Problem Selection) :
    (Move.step (selection.spelled store) next).spelled store =
      (Move.step selection next).spelled store := by
  cases next with
  | error problem => exact congrArg (Move.mk · (some problem)) selection.spelled_spelled
  | ok found => rfl

theorem Move.spelled_andThen (selection : Selection) (first : Except Problem Selection)
    (next : Selection → Move) :
    ((Move.step (selection.spelled store) first).andThen next).spelled store =
      ((Move.step selection first).andThen next).spelled store := by
  cases first with
  | error problem => exact Move.spelled_step selection (.error problem)
  | ok found => rfl

/-- A call does not tell a whole table from the list of its rows. -/
theorem perform_spelled (action : Action) (selection : Selection) :
    (perform store action (selection.spelled store)).spelled store =
      (perform store action selection).spelled store := by
  cases selection with
  | one table row => rfl
  | many table rows => rfl
  | whole table =>
    -- The first step computes the same from both, and what comes after it does not see them.
    obtain ⟨name, options⟩ := action
    cases name with
    | get => exact Move.spelled_step (.whole table) (get store options (.whole table))
    | findAll => exact Move.spelled_step (.whole table) (findAll store options (.whole table))
    | join => exact Move.spelled_step (.whole table) (join store options (.whole table))
    | eagerLoad => exact Move.spelled_step (.whole table) (eagerLoad store options (.whole table))
    | findFirst =>
      exact Move.spelled_andThen (.whole table) (findAll store options (.whole table)) _
    | ancestors => exact Move.spelled_andThen (.whole table) (get store options (.whole table)) _

theorem perform_congr {x y : Selection} (h : x.spelled store = y.spelled store)
    (action : Action) :
    (perform store action x).spelled store = (perform store action y).spelled store := by
  rw [← perform_spelled action x, h, perform_spelled]

theorem selectionAfter_congr {x y : Selection} (h : x.spelled store = y.spelled store)
    (actions : List Action) :
    (selectionAfter store x actions).spelled store =
      (selectionAfter store y actions).spelled store := by
  induction actions generalizing x y with
  | nil => exact h
  | cons action rest ih => exact ih (congrArg Move.selection (perform_congr h action))

theorem Selection.answer_spelled (selection : Selection) :
    (selection.spelled store).answer store = selection.answer store := by
  cases selection <;> rfl

theorem Move.answer_spelled (move : Move) :
    (move.spelled store).answer store = move.answer store := by
  obtain ⟨selection, problem⟩ := move
  cases problem with
  | none => exact congrArg Except.ok selection.answer_spelled
  | some problem => rfl

theorem attributes_spelled (store : Store) (selection : Selection) :
    attributes (selection.spelled store) = attributes selection := by
  cases selection <;> rfl

theorem answerOn_congr {x y : Selection} (h : x.spelled store = y.spelled store) (call : Call) :
    answerOn store x call = answerOn store y call := by
  cases call with
  | act action =>
    have hmove := perform_congr h action
    have hanswer : (perform store action x).answer store = (perform store action y).answer store := by
      rw [← Move.answer_spelled, hmove, Move.answer_spelled]
    exact congrArg (Except.mapError Problem.failure) hanswer
  | attributes =>
    have hattributes : attributes x = attributes y := by
      rw [← attributes_spelled store, h, attributes_spelled]
    exact congrArg (fun row => (Except.mapError Problem.failure row).map Answer.one) hattributes

/-! ### Telling selections apart -/

/-- A search without conditions shows the rows that are selected. -/
theorem answerOn_findAll (selection : Selection) :
    answerOn store selection (.act ⟨.findAll, []⟩) = .ok (.many (selection.rows store)) := by
  have hall : (selection.rows store).filter (satisfiesAll []) = selection.rows store :=
    List.filter_eq_self.2 fun _ _ => rfl
  have hfind : findAll store [] selection =
      .ok (.many selection.tableName ((selection.rows store).filter (satisfiesAll []))) := rfl
  rw [answerOn, perform, Move.answer_step, hfind, hall]
  rfl

/-- A join along a relation that is not declared names the table. -/
theorem answerOn_join {selection : Selection} {name : String}
    (h : store.relation? selection.tableName name = none) :
    answerOn store selection (.act ⟨.join, [("with", .string name)]⟩) =
      .error (Problem.cannotJoin selection.tableName name).failure := by
  have hasks : JoinAsks name [] [] [("with", .string name)] :=
    ⟨rfl, .none (.inl rfl), .none (.inl rfl)⟩
  rw [answerOn, perform, Move.answer_step, join_of_undeclared selection hasks h]
  rfl

theorem exists_undeclared (store : Store) (x y : String) :
    ∃ name, store.relation? x name = none ∧ store.relation? y name = none := by
  let declared (table : String) : List String := ((store.relations.get? table).getD []).names
  obtain ⟨name, hname⟩ := Infinite.exists_notMem_finset (declared x ++ declared y).toFinset
  rw [List.mem_toFinset, List.mem_append, not_or] at hname
  have hnone : ∀ table, name ∉ declared table → store.relation? table name = none := by
    intro table h
    unfold declared at h
    unfold relation?
    cases hrelations : store.relations.get? table with
    | none => rfl
    | some relations =>
      rw [hrelations] at h
      exact Fields.get?_eq_none_of_names h
  exact ⟨name, hnone x hname.1, hnone y hname.2⟩

theorem table_eq_of_cannotJoin {x y name : String}
    (h : (Problem.cannotJoin x name).message = (Problem.cannotJoin y name).message) : x = y := by
  unfold Problem.message at h
  have htable := String.append_left_inj _ |>.1 <| String.append_left_inj _ |>.1 <|
    String.append_left_inj _ |>.1 h
  exact String.append_right_inj _ |>.1 htable

/-- Selections from which all calls are answered alike are alike. -/
theorem spelled_of_answerOn {x y : Selection}
    (h : ∀ call, answerOn store x call = answerOn store y call) :
    x.spelled store = y.spelled store := by
  -- Three calls tell selections apart: a search shows the rows, a join along a relation that neither
  -- table has names the table, and the attributes are there for one row alone.
  have hrows : x.rows store = y.rows store := by
    have hfind := h (.act ⟨.findAll, []⟩)
    rw [answerOn_findAll, answerOn_findAll] at hfind
    exact Answer.many.inj (Except.ok.inj hfind)
  have htable : x.tableName = y.tableName := by
    obtain ⟨name, hx, hy⟩ := exists_undeclared store x.tableName y.tableName
    have hjoin := h (.act ⟨.join, [("with", .string name)]⟩)
    rw [answerOn_join hx, answerOn_join hy] at hjoin
    exact table_eq_of_cannotJoin (congrArg Adapter.Failure.message (Except.error.inj hjoin))
  have hattributes := h .attributes
  cases x with
  | one table row =>
    cases y with
    | one _ _ =>
      cases htable
      cases hrows
      rfl
    | whole _ | many _ _ => cases hattributes
  | whole table =>
    cases y with
    | one _ _ => cases hattributes
    | whole _ | many _ _ =>
      cases htable
      exact congrArg (Selection.many table) hrows
  | many table rows =>
    cases y with
    | one _ _ => cases hattributes
    | whole _ | many _ _ =>
      cases htable
      exact congrArg (Selection.many table) hrows

/-- Calls from two selections on are answered alike exactly if these differ at most in whether a whole
table is spelled out. -/
theorem answers_iff_spelled {x y : Selection} :
    (∀ later call, answerOn store (selectionAfter store x (Call.actions later)) call =
      answerOn store (selectionAfter store y (Call.actions later)) call) ↔
      x.spelled store = y.spelled store := by
  constructor
  · intro h
    exact spelled_of_answerOn (h [])
  · intro h later
    exact answerOn_congr (selectionAfter_congr h (Call.actions later))

/-! ## Failing calls of a session -/

theorem perform_of_answer_error {table : String} {earlier : List Call} {action : Action}
    {failure : Adapter.Failure}
    (h : (store.session table).answer earlier (.act action) = .error failure) :
    ∃ problem, problem.failure = failure ∧ perform store action (store.selected table earlier) =
      ⟨store.selected table (earlier ++ [.act action]), some problem⟩ := by
  have hanswer : answerOn store (store.selected table earlier) (.act action) = .error failure := h
  rw [selected_append_act]
  rw [answerOn] at hanswer
  cases hmove : perform store action (store.selected table earlier) with
  | mk selection problem =>
    rw [hmove] at hanswer
    cases problem with
    | none => cases hanswer
    | some problem => exact ⟨problem, Except.error.inj hanswer, rfl⟩

/-- What a failing call of a session has left selected is told by `Leaves`, and it is what was
selected before if the call is made of one step. All later calls are answered as if the failing call
had not been made exactly if it has left what was selected before, up to spelling out a table. -/
theorem failing_call_leaves (store : Store) (table : String) (earlier : List Call)
    (action : Action) (failure : Adapter.Failure)
    (h : (store.session table).answer earlier (.act action) = .error failure) :
    let before := store.selected table earlier
    let after := store.selected table (earlier ++ [.act action])
    (∃ problem, problem.failure = failure ∧ Leaves store before action problem after ∧
      ∀ problem' left, Leaves store before action problem' left → problem' = problem ∧ left = after) ∧
    (action.name ≠ .findFirst → action.name ≠ .ancestors → after = before) ∧
    ((∀ later call, (store.session table).answer (earlier ++ .act action :: later) call =
        (store.session table).answer (earlier ++ later) call) ↔
      after.spelled store = before.spelled store) := by
  intro before after
  obtain ⟨problem, hfailure, hmove⟩ := perform_of_answer_error h
  have hleaves : Leaves store before action problem after := perform_failed_iff.1 hmove
  refine ⟨⟨problem, hfailure, hleaves, fun problem' left hleft => ?_⟩, hleaves.unchanged, ?_⟩
  · have hsame := (perform_failed_iff.2 hleft).symm.trans hmove
    cases hsame
    exact ⟨rfl, rfl⟩
  · -- Later calls see no more of what is selected than its spelling.
    rw [← answers_iff_spelled]
    refine forall_congr' fun later => forall_congr' fun call => ?_
    rw [List.append_cons, answer_append, answer_append]

/-- A search for the first row that finds none leaves no rows selected, and those that were selected
before are not found any more. -/
theorem findFirst_leaves_nothing :
    let search : Action := ⟨.findFirst, [("conditions", .object [("role", .string "editor")])]⟩
    (blog.session "users").answer [] (.act search) = .error (Problem.noRow "users").failure ∧
      Leaves blog (.whole "users") search (.noRow "users") (.many "users" []) ∧
      ¬ ∀ later call, (blog.session "users").answer (.act search :: later) call =
        (blog.session "users").answer later call := by
  intro search
  have hfails : (blog.session "users").answer [] (.act search) =
      .error (Problem.noRow "users").failure := by rfl
  obtain ⟨-, -, hunnoticed⟩ := failing_call_leaves blog "users" [] search _ hfails
  have hnothing : findAll blog search.options (.whole "users") = .ok (.many "users" []) := by rfl
  refine ⟨hfails, .noRow hnothing, fun h => ?_⟩
  have hshown : ((blog.selected "users" [.act search]).spelled blog).rows blog = [] := by rfl
  have hrows := hshown.symm.trans (congrArg (Selection.rows blog) (hunnoticed.1 h))
  cases hrows

/-- A walk that is lost after its first relation leaves the rows that it has reached. -/
example : blog.selected "users" [.act ⟨.ancestors, [("id", .string "1"),
      ("via", .array [.string "posts", .string "tags"])]⟩] =
    .many "posts" [[("id", .number (.integer 10)), ("user_id", .number (.integer 1))],
      [("id", .number (.integer 11)), ("user_id", .number (.integer 1))]] := by
  rfl

end NamedQuery.Store
