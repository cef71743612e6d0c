import NamedQuery.Proofs.Store.Calls

/-! # The steps of calls

A call is made of steps, each of which selects something or fails and leaves what was selected before.
So what all steps keep is kept by every call, also by one that fails half-way (`perform_keeps`), and by
every series of calls (`selectionAfter_keeps`).

A session is also asked for the attributes of what it has selected. This is a call of its own (`Call`)
that selects nothing. -/

namespace NamedQuery

/-! ## Calls of a session -/

/-- What a session can be asked: an action, or the attributes of the record that is selected. -/
inductive Call where
  | act (action : Action)
  | attributes

namespace Call

def actions (calls : List Call) : List Action :=
  calls.filterMap fun
    | act action => some action
    | attributes => none

theorem actions_append (calls calls' : List Call) :
    actions (calls ++ calls') = actions calls ++ actions calls' :=
  List.filterMap_append

end Call

def Answer.rows : Answer → List Row
  | one row => [row]
  | many rows => rows

def Session.answer (session : Session) (earlier : List Call) :
    Call → Except Adapter.Failure Answer
  | .act action => session.reply (Call.actions earlier) action
  | .attributes => (session.attributes (Call.actions earlier)).map .one

namespace Store

def selected (store : Store) (table : String) (calls : List Call) : Selection :=
  selectionAfter store (.whole table) (Call.actions calls)

@[simp] theorem rows_answer (store : Store) (selection : Selection) :
    (selection.answer store).rows = selection.rows store := by
  cases selection <;> rfl

def answerOn (store : Store) (selection : Selection) : Call → Except Adapter.Failure Answer
  | .act action => ((perform store action selection).answer store).mapError Problem.failure
  | .attributes => ((attributes selection).mapError Problem.failure).map .one

/-- Calls see of what was called before only what it has selected. -/
theorem answer_append (store : Store) (table : String) (earlier later : List Call) (call : Call) :
    (store.session table).answer (earlier ++ later) call =
      answerOn store
        (selectionAfter store (store.selected table earlier) (Call.actions later)) call := by
  have hselected : selectionAfter store (.whole table) (Call.actions (earlier ++ later)) =
      selectionAfter store (store.selected table earlier) (Call.actions later) := by
    rw [Call.actions_append]
    exact List.foldl_append
  rw [← hselected]
  cases call <;> rfl

theorem selected_append_act (store : Store) (table : String) (earlier : List Call) (action : Action) :
    store.selected table (earlier ++ [.act action]) =
      (perform store action (store.selected table earlier)).selection := by
  rw [selected, Call.actions_append]
  exact selectionAfter_append_singleton rfl action

theorem selected_append_attributes (store : Store) (table : String) (earlier : List Call) :
    store.selected table (earlier ++ [.attributes]) = store.selected table earlier := by
  rw [selected, Call.actions_append]
  exact congrArg (selectionAfter store (.whole table)) (List.append_nil _)

/-- The rows of a successful answer are those that are selected then. -/
theorem rows_of_answer {store : Store} {table : String} {earlier : List Call} {call : Call}
    {answer : Answer} (h : (store.session table).answer earlier call = .ok answer) :
    answer.rows = (store.selected table (earlier ++ [call])).rows store := by
  have hanswer : answerOn store (store.selected table earlier) call = .ok answer := by
    cases call <;> exact h
  cases call with
  | act action =>
    rw [selected_append_act]
    rw [answerOn] at hanswer
    cases hmove : perform store action (store.selected table earlier) with
    | mk selection problem =>
      rw [hmove] at hanswer
      cases problem with
      | some problem => cases hanswer
      | none =>
        cases hanswer
        exact rows_answer store selection
  | attributes =>
    rw [selected_append_attributes]
    rw [answerOn] at hanswer
    cases hselected : store.selected table earlier with
    | one table row =>
      rw [hselected] at hanswer
      cases hanswer
      rfl
    | whole _ | many _ _ =>
      rw [hselected] at hanswer
      cases hanswer

/-! ## Steps -/

/-- A step that succeeds in selecting something, other than embedding. -/
inductive Selects (store : Store) (selection next : Selection) : Prop where
  | get {options : Options} :
      get store options selection = .ok next → Selects store selection next
  | findAll {options : Options} :
      findAll store options selection = .ok next → Selects store selection next
  | first : first store selection = .ok next → Selects store selection next
  | hop {name : String} : hop store name selection = .ok next → Selects store selection next
  | join {options : Options} :
      join store options selection = .ok next → Selects store selection next

section Keeps

variable {store : Store} {P : Selection → Prop} {selection : Selection}

theorem Move.step_keeps {next : Except Problem Selection} (h : P selection)
    (hnext : ∀ found, next = .ok found → P found) : P (Move.step selection next).selection := by
  cases next with
  | error problem => exact h
  | ok found => exact hnext found rfl

theorem Move.andThen_keeps {move : Move} {next : Selection → Move} (h : P move.selection)
    (hnext : ∀ found, P found → P (next found).selection) :
    P (move.andThen next).selection := by
  obtain ⟨found, problem⟩ := move
  cases problem with
  | some problem => exact h
  | none => exact hnext found h

variable (hselects : ∀ {selection next}, Selects store selection next → P selection → P next)
include hselects

theorem finishWalk_keeps {options : Options} {next : Selection}
    (hnext : finishWalk store options selection = .ok next) (h : P selection) : P next := by
  cases selection with
  | whole table =>
    cases hnext
    exact h
  | many table rows => exact hselects (.findAll hnext) h
  | one table row =>
    unfold finishWalk at hnext
    cases hread : readConditions options "conditions" with
    | error problem =>
      rw [hread] at hnext
      cases hnext
    | ok conditions =>
      rw [hread] at hnext
      by_cases hmeets : satisfiesAll conditions row
      · have hsame : Except.ok (Selection.one table row) = Except.ok next :=
          (if_pos hmeets).symm.trans hnext
        cases hsame
        exact h
      · have herror : Except.error (Problem.noRow table) = Except.ok next :=
          (if_neg hmeets).symm.trans hnext
        cases herror

theorem follow_keeps (names : List String) (h : P selection) :
    P (follow store names selection).selection := by
  induction names generalizing selection with
  | nil => exact h
  | cons name rest ih =>
    rw [follow]
    refine Move.andThen_keeps (Move.step_keeps h fun next hnext => ?_) fun next => ih
    exact hselects (.hop hnext) h

theorem findFirst_keeps (options : Options) (h : P selection) :
    P (findFirst store options selection).selection := by
  rw [findFirst]
  refine Move.andThen_keeps (Move.step_keeps h fun found hfound => ?_) fun found hfound => ?_
  · exact hselects (.findAll hfound) h
  · exact Move.step_keeps hfound fun row hrow => hselects (.first hrow) hfound

theorem ancestors_keeps (options : Options) (h : P selection) :
    P (ancestors store options selection).selection := by
  rw [ancestors]
  refine Move.andThen_keeps (Move.step_keeps h fun anchor hanchor => ?_) fun anchor hanchor => ?_
  · exact hselects (.get hanchor) h
  · cases readVia options with
    | error problem => exact hanchor
    | ok names =>
      refine Move.andThen_keeps (follow_keeps hselects names hanchor) fun last hlast => ?_
      exact Move.step_keeps hlast fun next hnext => finishWalk_keeps hselects hnext hlast

/-- What all steps of a call keep, the call keeps, also when it fails. -/
theorem perform_keeps {action : Action}
    (hembeds : action.name = .eagerLoad → ∀ {selection next},
      eagerLoad store action.options selection = .ok next → P selection → P next)
    (h : P selection) : P (perform store action selection).selection := by
  obtain ⟨name, options⟩ := action
  cases name with
  | get => exact Move.step_keeps h fun next hnext => hselects (.get hnext) h
  | findFirst => exact findFirst_keeps hselects options h
  | findAll => exact Move.step_keeps h fun next hnext => hselects (.findAll hnext) h
  | ancestors => exact ancestors_keeps hselects options h
  | join => exact Move.step_keeps h fun next hnext => hselects (.join hnext) h
  | eagerLoad => exact Move.step_keeps h fun next hnext => hembeds rfl hnext h

/-- What all steps keep, calls keep. -/
theorem selectionAfter_keeps {actions : List Action}
    (hembeds : ∀ action ∈ actions, action.name = .eagerLoad → ∀ {selection next},
      eagerLoad store action.options selection = .ok next → P selection → P next)
    (h : P selection) : P (selectionAfter store selection actions) := by
  induction actions generalizing selection with
  | nil => exact h
  | cons action rest ih =>
    obtain ⟨hfirst, hrest⟩ := List.forall_mem_cons.1 hembeds
    exact ih hrest (perform_keeps hselects hfirst h)

end Keeps

end Store

end NamedQuery
