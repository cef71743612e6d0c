import NamedQuery.Run
import NamedQuery.Store.Session

/-! # What calls come to

A call leaves a selection behind even when it fails; `Move.outcome` is either the selection or the
problem. `performEach` makes calls one after another, and this is what a session answers to them,
whatever was called before (`performAll_of_ok`, `performAll_of_error`). -/

namespace NamedQuery.Store

/-! ## Moves -/

def Move.outcome (move : Move) : Except Problem Selection :=
  match move.problem with
  | some problem => .error problem
  | none => .ok move.selection

theorem Move.outcome_step (selection : Selection) (next : Except Problem Selection) :
    (Move.step selection next).outcome = next := by
  cases next <;> rfl

theorem Move.outcome_andThen (move : Move) (next : Selection → Move) :
    (move.andThen next).outcome = move.outcome.bind fun selection => (next selection).outcome := by
  obtain ⟨selection, problem⟩ := move
  cases problem <;> rfl

theorem Move.answer_eq (store : Store) (move : Move) :
    move.answer store = move.outcome.map (Selection.answer store) := by
  obtain ⟨selection, problem⟩ := move
  cases problem <;> rfl

theorem Move.answer_step (store : Store) (selection : Selection) (next : Except Problem Selection) :
    (Move.step selection next).answer store = next.map (Selection.answer store) := by
  rw [answer_eq, outcome_step]

/-- A call that comes to a selection leaves this one. -/
theorem Move.selection_of_outcome {move : Move} {selection : Selection}
    (h : move.outcome = .ok selection) : move.selection = selection := by
  obtain ⟨_, problem⟩ := move
  cases problem with
  | none => exact Except.ok.inj h
  | some _ => cases h

/-! ## Several calls -/

/-- Calls one after another, up to the first one that fails. -/
def performEach (store : Store) : List Action → Selection → Except Problem Selection
  | [], selection => .ok selection
  | action :: rest, selection => (perform store action selection).outcome.bind (performEach store rest)

variable {store : Store} {table : String} {earlier : List Action} {start : Selection}

theorem reply_session (hstart : selectionAfter store (.whole table) earlier = start)
    (action : Action) :
    (store.session table).reply earlier action =
      ((perform store action start).outcome.map (Selection.answer store)).mapError
        Problem.failure := by
  rw [← hstart, ← Move.answer_eq]
  rfl

/-- The first call of a session is answered as it comes out on the whole table. -/
theorem reply_nil_ok_iff {action : Action} {answer : Answer} :
    (store.session table).reply [] action = .ok answer ↔
      (perform store action (.whole table)).answer store = .ok answer := by
  rw [reply_session rfl, ← Move.answer_eq, selectionAfter, List.foldl_nil]
  cases (perform store action (.whole table)).answer store with
  | error problem => exact ⟨nofun, nofun⟩
  | ok found =>
    constructor
    · intro h
      cases h
      rfl
    · intro h
      cases h
      rfl

theorem selectionAfter_append_singleton
    (hstart : selectionAfter store (.whole table) earlier = start) (action : Action) :
    selectionAfter store (.whole table) (earlier ++ [action]) =
      (perform store action start).selection := by
  rw [selectionAfter, List.foldl_append, List.foldl_cons, List.foldl_nil, ← hstart]
  rfl

/-- Calls that all succeed are all made, and the last one is answered with what is selected then. -/
theorem performAll_of_ok {actions : List Action} {answer? : Option Answer} {last : Selection}
    (hstart : selectionAfter store (.whole table) earlier = start)
    (hanswer : actions = [] → answer? = some (start.answer store))
    (h : performEach store actions start = .ok last) :
    (store.session table).performAll earlier answer? actions =
        (.ok (some (last.answer store)), actions) ∧
      selectionAfter store (.whole table) (earlier ++ actions) = last := by
  -- On the calls that are still to be made, after any earlier ones that have led to `start`.
  induction actions generalizing earlier start answer? with
  | nil =>
    cases h
    rw [hanswer rfl, List.append_nil]
    exact ⟨rfl, hstart⟩
  | cons action rest ih =>
    rw [performEach] at h
    have hreply := reply_session hstart action
    have hafter := selectionAfter_append_singleton hstart action
    cases hcall : (perform store action start).outcome with
    | error problem =>
      rw [hcall] at h
      cases h
    | ok next =>
      rw [hcall] at h hreply
      rw [Move.selection_of_outcome hcall] at hafter
      obtain ⟨hrest, hlast⟩ := ih hafter (fun _ => rfl) h
      have hreply : (store.session table).reply earlier action = .ok (next.answer store) := hreply
      rw [List.append_assoc] at hlast
      exact ⟨by simp only [Session.performAll, hreply, hrest], hlast⟩

/-- The first problem is the answer. -/
theorem performAll_of_error {actions : List Action} {answer? : Option Answer} {problem : Problem}
    (hstart : selectionAfter store (.whole table) earlier = start)
    (h : performEach store actions start = .error problem) :
    ((store.session table).performAll earlier answer? actions).1 = .error problem.failure := by
  -- On the actions that are left: one that succeeds joins the calls made before the next.
  induction actions generalizing earlier start answer? with
  | nil => cases h
  | cons action rest ih =>
    rw [performEach] at h
    have hreply := reply_session hstart action
    have hafter := selectionAfter_append_singleton hstart action
    cases hcall : (perform store action start).outcome with
    | error found =>
      rw [hcall] at h hreply
      cases h
      have hreply : (store.session table).reply earlier action = .error problem.failure := hreply
      simp only [Session.performAll, hreply]
    | ok next =>
      rw [hcall] at h hreply
      rw [Move.selection_of_outcome hcall] at hafter
      have hreply : (store.session table).reply earlier action = .ok (next.answer store) := hreply
      simp only [Session.performAll, hreply, ih hafter h]

end NamedQuery.Store
