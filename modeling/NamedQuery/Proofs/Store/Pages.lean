import Mathlib.Algebra.GroupWithZero.Nat
import NamedQuery.Proofs.Store.Join
import NamedQuery.Proofs.Store.Shape
import NamedQuery.Proofs.Store.Steps

/-! # Pages

A search, a join and a walk can be asked for a page of what they find: up to `limit` rows from an
`offset` on. Which rows are found, and in which order, does not depend on the page (`outcome_page`), so
every page is a section of one list, and pages that follow each other make up this list
(`pages_partition`). -/

namespace NamedQuery

def ActionName.showsPages : ActionName → Bool
  | findAll | join | ancestors => true
  | get | findFirst | eagerLoad => false

/-- A page of an answer; one row has no pages. -/
def Answer.page (offset limit : Nat) : Answer → Answer
  | one row => one row
  | many rows => many ((rows.drop offset).take limit)

namespace Store

/-! ## Asking for a page -/

/-- The options with an offset and a limit, whatever these were before. -/
def page (options : Options) (offset limit : Nat) : Options :=
  (options.insert "offset" (.ofNat offset)).insert "limit" (.ofNat limit)

def unpaged (options : Options) : Options := (options.erase "offset").erase "limit"

/-- Options that differ at most in the page that they ask for. -/
def SameBesidePage (options options' : Options) : Prop :=
  ∀ name, name ≠ "offset" → name ≠ "limit" → options.get? name = options'.get? name

theorem sameBesidePage_page (options : Options) (offset limit : Nat) :
    SameBesidePage (page options offset limit) options := by
  intro name hoffset hlimit
  rw [page, Fields.get?_insert_of_ne _ _ hlimit.symm, Fields.get?_insert_of_ne _ _ hoffset.symm]

theorem sameBesidePage_unpaged (options : Options) : SameBesidePage (unpaged options) options := by
  intro name hoffset hlimit
  rw [unpaged, Fields.get?_erase, if_neg hlimit.symm, Fields.get?_erase, if_neg hoffset.symm]

theorem sameBesidePage_page_unpaged (options : Options) (offset limit : Nat) :
    SameBesidePage (page options offset limit) (unpaged options) :=
  fun name hoffset hlimit => (sameBesidePage_page options offset limit name hoffset hlimit).trans
    (sameBesidePage_unpaged options name hoffset hlimit).symm

/-- Numbers of up to 64 bits are read as they are written. -/
theorem countIn_ofNat {n : Nat} (h : n < 2 ^ 64) : CountIn (some (.ofNat n)) (some n) := by
  have hword : Json.IsWord n := by
    unfold Json.IsWord
    omega
  rw [Json.ofNat, Json.ofInt, dif_pos hword]
  exact .natural

variable {options options' : Options} {offset limit : Nat}

theorem readCount_page (hoffset : offset < 2 ^ 64) (hlimit : limit < 2 ^ 64) :
    readCount (page options offset limit) "offset" = .ok (some offset) ∧
      readCount (page options offset limit) "limit" = .ok (some limit) := by
  constructor
  · refine readCount_of_countIn ?_
    rw [page, Fields.get?_insert_of_ne _ _ (by decide), Fields.get?_insert_self]
    exact countIn_ofNat hoffset
  · refine readCount_of_countIn ?_
    rw [page, Fields.get?_insert_self]
    exact countIn_ofNat hlimit

theorem readCount_unpaged (options : Options) :
    readCount (unpaged options) "offset" = .ok none ∧
      readCount (unpaged options) "limit" = .ok none := by
  constructor
  · refine readCount_of_countIn (.none (.inl ?_))
    rw [unpaged, Fields.get?_erase, if_neg (by decide), Fields.get?_erase, if_pos rfl]
  · refine readCount_of_countIn (.none (.inl ?_))
    rw [unpaged, Fields.get?_erase, if_pos rfl]

/-! ## Reading the other options -/

section SameBesidePage

variable (h : SameBesidePage options options')
include h

theorem readConditions_congr {name : String} (hoffset : name ≠ "offset") (hlimit : name ≠ "limit") :
    readConditions options name = readConditions options' name := by
  rw [readConditions, h name hoffset hlimit, readConditions]

theorem readOrder_congr : readOrder options = readOrder options' := by
  rw [readOrder, h "order" (by decide) (by decide), readOrder]

theorem readVia_congr : readVia options = readVia options' := by
  rw [readVia, h "via" (by decide) (by decide), readVia]

theorem get_congr (store : Store) (selection : Selection) :
    get store options selection = get store options' selection := by
  rw [get, h "id" (by decide) (by decide), get]

theorem keepJoined_congr (store : Store) (relation : Relation) (rows : List Row) :
    keepJoined store relation options rows = keepJoined store relation options' rows := by
  rw [keepJoined, readConditions_congr h (by decide) (by decide), keepJoined]

end SameBesidePage

theorem readWindow_unpaged (options : Options) :
    readWindow (unpaged options) = (readOrder (unpaged options)).map fun order => ⟨order, 0, none⟩ := by
  rw [readWindow, (readCount_unpaged options).1, (readCount_unpaged options).2]
  cases readOrder (unpaged options) <;> rfl

theorem readWindow_page (hoffset : offset < 2 ^ 64) (hlimit : limit < 2 ^ 64) :
    readWindow (page options offset limit) =
      (readOrder (unpaged options)).map fun order => ⟨order, offset, some limit⟩ := by
  rw [readWindow, (readCount_page hoffset hlimit).1, (readCount_page hoffset hlimit).2,
    readOrder_congr (sameBesidePage_page_unpaged options offset limit)]
  cases readOrder (unpaged options) <;> rfl

/-! ## What a page shows -/

/-- A page of the rows that are selected one by one. -/
def Selection.page (offset limit : Nat) : Selection → Selection
  | whole table => whole table
  | one table row => one table row
  | many table rows => many table ((rows.drop offset).take limit)

theorem answer_page (store : Store) {selection : Selection} (h : ∀ table, selection ≠ .whole table) :
    (selection.page offset limit).answer store = (selection.answer store).page offset limit := by
  cases selection with
  | whole table => exact absurd rfl (h table)
  | one _ _ | many _ _ => rfl

section Page

variable {store : Store} (hoffset : offset < 2 ^ 64) (hlimit : limit < 2 ^ 64)
include hoffset hlimit

theorem findAll_page (selection : Selection) :
    findAll store (page options offset limit) selection =
      (findAll store (unpaged options) selection).map (Selection.page offset limit) := by
  rw [findAll, findAll, readWindow_page hoffset hlimit, readWindow_unpaged,
    readConditions_congr (sameBesidePage_page_unpaged options offset limit) (by decide) (by decide)]
  cases readConditions (unpaged options) "conditions" with
  | error problem => rfl
  | ok conditions => cases readOrder (unpaged options) <;> rfl

theorem join_page (selection : Selection) :
    join store (page options offset limit) selection =
      (join store (unpaged options) selection).map (Selection.page offset limit) := by
  have hsame := sameBesidePage_page_unpaged options offset limit
  rw [join, join, hsame "with" (by decide) (by decide)]
  split
  · next name _ =>
    cases store.relation? selection.tableName name with
    | none => rfl
    | some relation =>
      have hconditions : readConditions (page options offset limit) "conditions" =
          readConditions (unpaged options) "conditions" :=
        readConditions_congr hsame (by decide) (by decide)
      simp only [hconditions, keepJoined_congr hsame, readWindow_page hoffset hlimit,
        readWindow_unpaged]
      cases readConditions (unpaged options) "conditions" with
      | error problem => rfl
      | ok conditions =>
        -- The window is read last, so its problems come after all others with and without a page.
        show (keepJoined ..).bind _ = ((keepJoined ..).bind _).map _
        cases keepJoined store relation (unpaged options)
            ((selection.rows store).filter (satisfiesAll conditions)) with
        | error problem => rfl
        | ok joined => cases readOrder (unpaged options) <;> rfl
  · rfl

theorem finishWalk_page (selection : Selection) :
    finishWalk store (page options offset limit) selection =
      (finishWalk store (unpaged options) selection).map (Selection.page offset limit) := by
  cases selection with
  | whole table => rfl
  | many table rows => exact findAll_page hoffset hlimit (.many table rows)
  | one table row =>
    rw [finishWalk, finishWalk,
      readConditions_congr (sameBesidePage_page_unpaged options offset limit) (by decide) (by decide)]
    cases readConditions (unpaged options) "conditions" with
    | error problem => rfl
    | ok conditions =>
      show (if _ then _ else _) = Except.map _ (if _ then _ else _)
      split <;> rfl

/-- A call finds the same rows whichever page it is asked for, and fails alike. -/
theorem outcome_page {name : ActionName} (hname : name.showsPages) (selection : Selection) :
    (perform store ⟨name, page options offset limit⟩ selection).outcome =
      (perform store ⟨name, unpaged options⟩ selection).outcome.map (Selection.page offset limit) := by
  have hsame := sameBesidePage_page_unpaged options offset limit
  cases name with
  | get | findFirst | eagerLoad => cases hname
  | findAll =>
    simp only [perform, Move.outcome_step]
    exact findAll_page hoffset hlimit selection
  | join =>
    simp only [perform, Move.outcome_step]
    exact join_page hoffset hlimit selection
  | ancestors =>
    -- The anchor and the way are the same, so only the last step sees the page.
    simp only [perform, ancestors, Move.outcome_andThen, Move.outcome_step, get_congr hsame,
      readVia_congr hsame]
    cases get store (unpaged options) selection with
    | error problem => rfl
    | ok anchor =>
      cases readVia (unpaged options) with
      | error problem => rfl
      | ok names =>
        show (Move.andThen _ _).outcome = (Move.andThen _ _).outcome.map _
        simp only [Move.outcome_andThen, Move.outcome_step, finishWalk_page hoffset hlimit]
        cases (follow store names anchor).outcome <;> rfl

end Page

/-! ### Selected rows -/

section NotWhole

variable {store : Store} {selection next : Selection}

/-- No step selects a whole table. -/
theorem not_whole_of_selects (h : Selects store selection next) (table : String) :
    next ≠ .whole table := by
  -- Only a fresh session stands on a whole table: every step lists the rows that it selects.
  cases h with
  | get h =>
    obtain ⟨row, rfl⟩ := get_ok h
    nofun
  | findAll h =>
    obtain ⟨_, _, h⟩ := bind_eq_ok_iff.1 h
    obtain ⟨_, _, h⟩ := bind_eq_ok_iff.1 h
    cases h
    nofun
  | first h =>
    unfold first at h
    split at h <;> cases h
    nofun
  | hop h =>
    unfold hop at h
    split at h
    · cases h
    · split at h
      · cases h
      · split at h
        · cases h
          nofun
        · dsimp only at h
          split at h <;> cases h
          nofun
      · cases h
        nofun
  | join h =>
    unfold join at h
    split at h
    · split at h
      · cases h
      · obtain ⟨_, _, h⟩ := bind_eq_ok_iff.1 h
        obtain ⟨_, _, h⟩ := bind_eq_ok_iff.1 h
        obtain ⟨_, _, h⟩ := bind_eq_ok_iff.1 h
        cases h
        nofun
    · cases h

theorem not_whole_of_outcome {name : ActionName} (hname : name.showsPages)
    (h : (perform store ⟨name, options⟩ selection).outcome = .ok next) (table : String) :
    next ≠ .whole table := by
  cases name with
  | get | findFirst | eagerLoad => cases hname
  | findAll =>
    simp only [perform, Move.outcome_step] at h
    exact not_whole_of_selects (.findAll h) table
  | join =>
    simp only [perform, Move.outcome_step] at h
    exact not_whole_of_selects (.join h) table
  | ancestors =>
    simp only [perform, ancestors, Move.outcome_andThen, Move.outcome_step] at h
    obtain ⟨anchor, hget, h⟩ := bind_eq_ok_iff.1 h
    have hanchor : ∀ table, anchor ≠ .whole table := not_whole_of_selects (.get hget)
    cases hvia : readVia options with
    | error problem =>
      rw [hvia] at h
      cases h
    | ok names =>
      rw [hvia] at h
      simp only [Move.outcome_andThen, Move.outcome_step] at h
      obtain ⟨last, hfollow, h⟩ := bind_eq_ok_iff.1 h
      -- No step selects a whole table, so it is left behind with the first one.
      have hkeeps {selection next : Selection} (hselects : Selects store selection next)
          (_ : ∀ table, selection ≠ .whole table) : ∀ table, next ≠ .whole table :=
        not_whole_of_selects hselects
      have hlast := follow_keeps (P := fun selection => ∀ table, selection ≠ .whole table) hkeeps
        names hanchor
      rw [Move.selection_of_outcome hfollow] at hlast
      exact finishWalk_keeps (P := fun selection => ∀ table, selection ≠ .whole table) hkeeps h
        hlast table

end NotWhole

variable {store : Store} {selection : Selection} {name : ActionName}

/-- Of an answer a page is a section. -/
theorem answerOn_page (selection : Selection) (hname : name.showsPages) (hoffset : offset < 2 ^ 64)
    (hlimit : limit < 2 ^ 64) :
    answerOn store selection (.act ⟨name, page options offset limit⟩) =
      (answerOn store selection (.act ⟨name, unpaged options⟩)).map (Answer.page offset limit) := by
  rw [answerOn, answerOn, Move.answer_eq, Move.answer_eq, outcome_page hoffset hlimit hname]
  cases houtcome : (perform store ⟨name, unpaged options⟩ selection).outcome with
  | error problem => rfl
  | ok found => exact congrArg Except.ok (answer_page store (not_whole_of_outcome hname houtcome))

/-! ## Proper calls -/

/-- The order that options ask for is a text, if they ask for one. -/
def ProperOrder (options : Options) : Prop :=
  Silent (options.get? "order") ∨ ∃ text, options.get? "order" = some (.string text)

/-- Apart from order and page, a call is one that finds a set of rows: a search with conditions, a join
along a relation of the table, or a walk that ends in a set and has conditions on it. -/
inductive FindsRows (store : Store) (selection : Selection) (options : Options) :
    ActionName → Prop where
  | findAll {conditions : Fields Json} :
      ConditionsIn (options.get? "conditions") conditions →
      FindsRows store selection options .findAll
  | join {name : String} {conditions withConditions : Fields Json} {relation : Relation} :
      JoinAsks name conditions withConditions options →
      store.relation? selection.tableName name = some relation →
      FindsRows store selection options .join
  | ancestors {anchor : Selection} {names : List String} {table : String} {reached : List Row}
      {conditions : Fields Json} :
      get store options selection = .ok anchor → readVia options = .ok names →
      (follow store names anchor).outcome = .ok (.many table reached) →
      ConditionsIn (options.get? "conditions") conditions →
      FindsRows store selection options .ancestors

theorem wellFormed_unpaged (h : ProperOrder options) : WellFormedWindow (unpaged options).get? where
  order := by rwa [sameBesidePage_unpaged options "order" (by decide) (by decide)]
  offset := by
    rw [unpaged, Fields.get?_erase, if_neg (by decide), Fields.get?_erase, if_pos rfl]
    exact ⟨none, .none (.inl rfl)⟩
  limit := by
    rw [unpaged, Fields.get?_erase, if_pos rfl]
    exact ⟨none, .none (.inl rfl)⟩

/-- A proper call succeeds. -/
theorem exists_answer_of_findsRows (h : FindsRows store selection options name)
    (horder : ProperOrder options) :
    ∃ rows, answerOn store selection (.act ⟨name, unpaged options⟩) = .ok (.many rows) := by
  have hsame := sameBesidePage_unpaged options
  have hwindow := wellFormed_unpaged horder
  cases h with
  | findAll hconditions =>
    rw [← hsame "conditions" (by decide) (by decide)] at hconditions
    obtain ⟨_, shown, _, _, hfound⟩ := findAll_of_wellFormed store selection hconditions hwindow
    rw [answerOn, perform, Move.answer_step, hfound]
    exact ⟨shown, rfl⟩
  | join hasks hrelation =>
    obtain ⟨hwith, hconditions, hwithConditions⟩ := hasks
    rw [← hsame _ (by decide) (by decide)] at hwith hconditions hwithConditions
    obtain ⟨_, shown, _, _, hfound⟩ :=
      join_of_wellFormed selection ⟨hwith, hconditions, hwithConditions⟩ hrelation hwindow
    rw [answerOn, perform, Move.answer_step, hfound]
    exact ⟨shown, rfl⟩
  | @ancestors anchor names table reached conditions hget hvia hfollow hconditions =>
    rw [← hsame "conditions" (by decide) (by decide)] at hconditions
    obtain ⟨_, shown, _, _, hfound⟩ :=
      findAll_of_wellFormed store (.many table reached) hconditions hwindow
    -- The anchor and the way to the set are found without a look at order and page.
    have houtcome : (ancestors store (unpaged options) selection).outcome = .ok (.many table shown) := by
      rw [ancestors, Move.outcome_andThen, Move.outcome_step, get_congr hsame, hget, readVia_congr hsame,
        hvia]
      show (Move.andThen _ _).outcome = _
      rw [Move.outcome_andThen, hfollow]
      show (Move.step _ _).outcome = _
      rw [Move.outcome_step, finishWalk, hfound]
      rfl
    rw [answerOn, perform, Move.answer_eq, houtcome]
    exact ⟨shown, rfl⟩

/-! ## Main statement -/

theorem page_append_page (a b c : Nat) (rows : List Row) :
    (rows.drop a).take b ++ (rows.drop (a + b)).take c = (rows.drop a).take (b + c) := by
  rw [List.take_add, List.drop_drop]

/-- Pages of one size, from the first one on. -/
theorem flatMap_pages (n count : Nat) (rows : List Row) :
    ((List.range count).flatMap fun i => (rows.drop (i * n)).take n) = rows.take (count * n) := by
  induction count with
  | zero => simp
  | succ count ih =>
    rw [List.range_succ, List.flatMap_append, ih, Nat.succ_mul, List.take_add]
    simp

/-- After any earlier calls, a search, a join or a walk that is asked for a page fails just as it does
without one. If it shows rows, which it does if it is a proper call, then two pages that follow each other
are one larger page, and pages of one size, put together, are the rows up to where the last page ends: all
of them, if there are enough pages. -/
theorem pages_partition (store : Store) (table : String) (earlier : List Call) (options : Options)
    {name : ActionName} (hname : name.showsPages) :
    let answer := fun options => (store.session table).answer earlier (.act ⟨name, options⟩)
    (∀ offset limit, offset < 2 ^ 64 → limit < 2 ^ 64 → ∀ failure,
      answer (page options offset limit) = .error failure ↔
        answer (unpaged options) = .error failure) ∧
    (FindsRows store (store.selected table earlier) options name → ProperOrder options →
      ∃ rows, answer (unpaged options) = .ok (.many rows)) ∧
    ∀ rows, answer (unpaged options) = .ok (.many rows) →
      (∀ a b c, a + b + c < 2 ^ 64 → ∃ xs ys,
        answer (page options a b) = .ok (.many xs) ∧
        answer (page options (a + b) c) = .ok (.many ys) ∧
        answer (page options a (b + c)) = .ok (.many (xs ++ ys))) ∧
      ∀ n, n < 2 ^ 64 → ∃ shown : Nat → List Row,
        (∀ i, i * n < 2 ^ 64 → answer (page options (i * n) n) = .ok (.many (shown i))) ∧
        ∀ count, (List.range count).flatMap shown = rows.take (count * n) ∧
          (rows.length ≤ count * n → (List.range count).flatMap shown = rows) := by
  intro answer
  -- All that follows is about sections of one list.
  have hanswer {a b : Nat} (ha : a < 2 ^ 64) (hb : b < 2 ^ 64) :
      answer (page options a b) = (answer (unpaged options)).map (Answer.page a b) :=
    answerOn_page (store.selected table earlier) hname ha hb
  refine ⟨fun a b ha hb failure => ?_, exists_answer_of_findsRows, fun rows hrows => ⟨?_, ?_⟩⟩
  · rw [hanswer ha hb]
    exact map_eq_error_iff
  · intro a b c hsum
    refine ⟨(rows.drop a).take b, (rows.drop (a + b)).take c, ?_, ?_, ?_⟩
    · rw [hanswer (by omega) (by omega), hrows]
      rfl
    · rw [hanswer (by omega) (by omega), hrows]
      rfl
    · rw [hanswer (by omega) (by omega), hrows, page_append_page]
      rfl
  · intro n hn
    refine ⟨fun i => (rows.drop (i * n)).take n, fun i hi => ?_, fun count => ?_⟩
    · rw [hanswer hi hn, hrows]
      rfl
    · have hpages := flatMap_pages n count rows
      exact ⟨hpages, fun hlength => hpages.trans (List.take_of_length_le hlength)⟩

def commentsInOrder : Options := Fields.ofList [("id", .string "1"), ("order", .string "id"),
  ("via", .array [.string "posts", .string "comments"])]

/-- The second page of them, one comment long. -/
example : (blog.session "users").answer [] (.act ⟨.ancestors, page commentsInOrder 1 1⟩) =
    .ok (.many [[("id", .number (.integer 21)), ("post_id", .number (.integer 10))]]) := by
  cbv

theorem comments_pages_partition :
    let answer := fun options => (blog.session "users").answer [] (.act ⟨.ancestors, options⟩)
    ActionName.ancestors.showsPages ∧
      FindsRows blog (.whole "users") commentsInOrder .ancestors ∧ ProperOrder commentsInOrder ∧
      ∃ rows, answer (unpaged commentsInOrder) = .ok (.many rows) ∧
        (∃ xs ys, answer (page commentsInOrder 0 1) = .ok (.many xs) ∧
          answer (page commentsInOrder (0 + 1) 5) = .ok (.many ys) ∧
          answer (page commentsInOrder 0 (1 + 5)) = .ok (.many (xs ++ ys))) ∧
        ∃ shown : Nat → List Row,
          (∀ i, i * 1 < 2 ^ 64 →
            answer (page commentsInOrder (i * 1) 1) = .ok (.many (shown i))) ∧
          ∀ count, rows.length ≤ count * 1 → (List.range count).flatMap shown = rows := by
  intro answer
  have hanchor : get blog commentsInOrder (.whole "users") =
      .ok (.one "users" [("id", .number (.integer 1)), ("role", .string "author")]) := rfl
  have hvia : readVia commentsInOrder = .ok ["posts", "comments"] := rfl
  have hfinds : FindsRows blog (.whole "users") commentsInOrder .ancestors :=
    .ancestors hanchor hvia rfl (.none (.inl rfl))
  have hshows : ActionName.ancestors.showsPages := rfl
  have horder : ProperOrder commentsInOrder := .inr ⟨"id", rfl⟩
  obtain ⟨-, hproper, hpages⟩ := pages_partition blog "users" [] commentsInOrder hshows
  obtain ⟨rows, hrows⟩ := hproper hfinds horder
  obtain ⟨hnext, hall⟩ := hpages rows hrows
  obtain ⟨shown, hshown, hcount⟩ := hall 1 (by omega)
  exact ⟨hshows, hfinds, horder, rows, hrows, hnext 0 1 5 (by omega), shown, hshown,
    fun count => (hcount count).2⟩

end Store

end NamedQuery
