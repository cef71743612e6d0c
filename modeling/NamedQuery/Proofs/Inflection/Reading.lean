import NamedQuery.Proofs.Inflection.Endings

/-! # Reading words from the end

A table of endings is read along with a word, last letter first: each letter leaves of every ending
what has to stand before it (`first?_cons`), and the end of the word decides. A letter that no ending
asks for leaves the same table whatever letter it is (`after_of_notAsked`), so finitely many ways of
reading show what holds for all words. `explore` goes through them for three tables at
once, and what it accepts holds for every word in small letters (`explore_sound`). -/

namespace NamedQuery.Inflection

open Identifier (continues)

/-! ## Lists in view

A list that is computed once is passed on with all its items in view, so that what uses it many times
does not compute it as often. -/

section InView

variable {ι κ : Type}

/-- Passes a list on, each of its items as `withOne` passes it on. -/
def withAll (withOne : ι → (ι → κ) → κ) : List ι → (List ι → κ) → κ
  | [], use => use []
  | i :: is, use => withOne i fun i => withAll withOne is fun is => use (i :: is)

theorem withAll_eq {withOne : ι → (ι → κ) → κ} (is : List ι) (h : ∀ i use, withOne i use = use i)
    (use : List ι → κ) : withAll withOne is use = use is := by
  induction is generalizing use with
  | nil => rfl
  | cons i is ih => rw [withAll, h, ih]

def alphabet : List Char :=
  ['a', 'b', 'c', 'd', 'e', 'f', 'g', 'h', 'i', 'j', 'k', 'l', 'm', 'n', 'o', 'p', 'q', 'r', 's', 't',
    'u', 'v', 'w', 'x', 'y', 'z']

def withChar (c : Char) (use : Char → κ) : κ :=
  match alphabet.find? (· = c) with
  | some d => use d
  | none => use c

theorem withChar_eq (c : Char) (use : Char → κ) : withChar c use = use c := by
  unfold withChar
  cases hfind : alphabet.find? (· = c) with
  | none => rfl
  | some d =>
    have heq : d = c := by simpa using List.find?_some hfind
    rw [heq]

def withLetter : Letter → (Letter → κ) → κ
  | .one c, use => withChar c fun c => use (.one c)
  | letter, use => use letter

theorem withLetter_eq (letter : Letter) (use : Letter → κ) : withLetter letter use = use letter := by
  cases letter with
  | one c => exact withChar_eq c _
  | oneOf | noneOf => rfl

def withBool : Bool → (Bool → κ) → κ
  | true, use => use true
  | false, use => use false

theorem withBool_eq (b : Bool) (use : Bool → κ) : withBool b use = use b := by
  cases b <;> rfl

end InView

/-! ## Endings -/

/-- Letters that a word ends in, the last one first, and what this says about it. A `whole` ending has
nothing before it. -/
structure Ending (α : Type) where
  letters : List Letter
  whole : Bool
  value : α

namespace Ending

variable {α : Type}

def inView {κ : Type} (withValue : α → (α → κ) → κ) (ending : Ending α) (use : Ending α → κ) : κ :=
  withAll withLetter ending.letters fun letters =>
    withBool ending.whole fun whole => withValue ending.value fun value => use ⟨letters, whole, value⟩

theorem inView_eq {κ : Type} {withValue : α → (α → κ) → κ}
    (h : ∀ value use, withValue value use = use value) (ending : Ending α) (use : Ending α → κ) :
    inView withValue ending use = use ending := by
  rw [inView, withAll_eq _ withLetter_eq, withBool_eq, h]

/-- Whether a word, last letter first, has the ending. -/
def fitsFrom (whole : Bool) : List Letter → List Char → Bool
  | [], rest => !whole || rest.isEmpty
  | _ :: _, [] => false
  | letter :: letters, c :: rest => letter.accepts c && fitsFrom whole letters rest

/-- What the first ending that a word has says about it. -/
def first? (endings : List (Ending α)) (word : List Char) : Option α :=
  endings.findSome? fun ending =>
    if fitsFrom ending.whole ending.letters word then some ending.value else none

/-! ## Letter by letter -/

/-- What is left of an ending after a letter. -/
def after (c : Char) (ending : Ending α) : Option (Ending α) :=
  match ending.letters with
  | [] => if ending.whole then none else some ending
  | letter :: letters => if letter.accepts c then some { ending with letters } else none

theorem fitsFrom_cons (ending : Ending α) (c : Char) (word : List Char) :
    fitsFrom ending.whole ending.letters (c :: word) =
      (after c ending).any fun left => fitsFrom left.whole left.letters word := by
  obtain ⟨letters, whole, value⟩ := ending
  cases letters with
  | nil => cases whole <;> rfl
  | cons letter letters =>
    simp only [fitsFrom, after]
    cases letter.accepts c <;> simp

theorem value_after {ending left : Ending α} {c : Char} (h : after c ending = some left) :
    left.value = ending.value := by
  unfold after at h
  split at h
  · split at h <;> cases h
    rfl
  · split at h <;> cases h
    rfl

theorem first?_cons (endings : List (Ending α)) (c : Char) (word : List Char) :
    first? endings (c :: word) = first? (endings.filterMap (after c)) word := by
  induction endings with
  | nil => rfl
  | cons ending endings ih =>
    rw [first?] at ih ⊢
    rw [List.findSome?_cons, fitsFrom_cons, ih, List.filterMap_cons]
    cases hafter : after c ending with
    | none => rfl
    | some left =>
      rw [Option.any_some, ← value_after hafter, first?, first?, List.findSome?_cons]

def afterAll (letters : List Char) (endings : List (Ending α)) : List (Ending α) :=
  letters.foldl (fun endings c => endings.filterMap (after c)) endings

theorem first?_append (endings : List (Ending α)) (letters word : List Char) :
    first? endings (letters ++ word) = first? (afterAll letters endings) word := by
  induction letters generalizing endings with
  | nil => rfl
  | cons c letters ih => rw [List.cons_append, first?_cons, ih, afterAll, afterAll, List.foldl_cons]

/-! ## Other letters -/

/-- The letters that a pattern tells from others. -/
def asksLetter : Letter → List Char
  | .one c => [c]
  | .oneOf cs => cs
  | .noneOf cs => cs

/-- The letters that endings tell from others in the next place. -/
def asks (endings : List (Ending α)) : List Char :=
  endings.flatMap fun ending => (ending.letters.head?.map asksLetter).getD []

/-- What is left of an ending after a letter that is not asked for. -/
def afterOther (ending : Ending α) : Option (Ending α) :=
  match ending.letters with
  | [] => if ending.whole then none else some ending
  | .noneOf _ :: letters => some { ending with letters }
  | _ :: _ => none

theorem after_of_notAsked {endings : List (Ending α)} {c : Char} (hc : continues c)
    (h : c ∉ asks endings) : endings.filterMap (after c) = endings.filterMap afterOther := by
  induction endings with
  | nil => rfl
  | cons ending endings ih =>
    rw [asks, List.flatMap_cons, List.mem_append, not_or] at h
    have hending : after c ending = afterOther ending := by
      obtain ⟨letters, whole, value⟩ := ending
      cases letters with
      | nil => rfl
      | cons letter letters =>
        have hletter : c ∉ asksLetter letter := h.1
        cases letter with
        | one d | oneOf ds | noneOf ds =>
          simp_all [after, afterOther, asksLetter, Letter.accepts, smallLetter_of_continues hc]
    rw [List.filterMap_cons, List.filterMap_cons, hending, ih h.2]

theorem first?_map_value {β : Type} (f : α → β) (endings : List (Ending α)) (word : List Char) :
    first? (endings.map fun ending => ⟨ending.letters, ending.whole, f ending.value⟩) word =
      (first? endings word).map f := by
  rw [first?, List.findSome?_map, first?, List.map_findSome?]
  refine congrArg (endings.findSome? ·) (funext fun ending => ?_)
  simp only [Function.comp_apply]
  split <;> rfl

/-! ## Endings that are settled -/

/-- What a table says about every word, if it says the same about all of them. -/
def settled? : List (Ending α) → Option (Option α)
  | [] => some none
  | ⟨[], false, value⟩ :: _ => some (some value)
  | _ => none

theorem first?_of_settled {endings : List (Ending α)} {value : Option α}
    (h : settled? endings = some value) (word : List Char) : first? endings word = value := by
  unfold settled? at h
  split at h
  · cases h
    rfl
  · cases h
    simp [first?, fitsFrom]
  · cases h

end Ending

/-! ## Three tables at once -/

/-- Three tables that are read along with the same letters. The first one says of a word whether it is
of interest. -/
structure Tables (α β : Type) where
  interest : List (Ending Bool)
  second : List (Ending α)
  third : List (Ending β)

namespace Tables

variable {α β : Type}

/-- Whether a word, last letter first, is of interest. -/
def Interests (tables : Tables α β) (word : List Char) : Prop :=
  Ending.first? tables.interest word = some true

def answers (tables : Tables α β) (word : List Char) : Option α × Option β :=
  (Ending.first? tables.second word, Ending.first? tables.third word)

def after (tables : Tables α β) (c : Char) : Tables α β :=
  ⟨tables.interest.filterMap (Ending.after c), tables.second.filterMap (Ending.after c),
    tables.third.filterMap (Ending.after c)⟩

def afterOther (tables : Tables α β) : Tables α β :=
  ⟨tables.interest.filterMap Ending.afterOther, tables.second.filterMap Ending.afterOther,
    tables.third.filterMap Ending.afterOther⟩

def asks (tables : Tables α β) : List Char :=
  (Ending.asks tables.interest ++ Ending.asks tables.second ++ Ending.asks tables.third).eraseDups

/-- What the tables say about every word, if they say the same about all of them. -/
def settled? (tables : Tables α β) : Option (Option Bool × Option α × Option β) :=
  match Ending.settled? tables.interest, Ending.settled? tables.second, Ending.settled? tables.third with
  | some interest, some second, some third => some (interest, second, third)
  | _, _, _ => none

theorem interests_cons {tables : Tables α β} {c : Char} {word : List Char} :
    tables.Interests (c :: word) ↔ (tables.after c).Interests word := by
  rw [Interests, Interests, Ending.first?_cons]
  rfl

theorem answers_cons (tables : Tables α β) (c : Char) (word : List Char) :
    tables.answers (c :: word) = (tables.after c).answers word := by
  simp only [answers, after, Ending.first?_cons]

theorem after_of_notAsked {tables : Tables α β} {c : Char} (hc : continues c)
    (h : c ∉ tables.asks) : tables.after c = tables.afterOther := by
  simp only [asks, List.mem_eraseDups, List.mem_append, not_or] at h
  simp only [after, afterOther, Ending.after_of_notAsked hc h.1.1, Ending.after_of_notAsked hc h.1.2,
    Ending.after_of_notAsked hc h.2]

theorem of_settled {tables : Tables α β} {interest : Option Bool} {answers : Option α × Option β}
    (h : tables.settled? = some (interest, answers)) (word : List Char) :
    (tables.Interests word ↔ interest = some true) ∧ tables.answers word = answers := by
  unfold settled? at h
  split at h
  · next hinterest hsecond hthird =>
    cases h
    simp only [Interests, Tables.answers, Ending.first?_of_settled hinterest,
      Ending.first?_of_settled hsecond, Ending.first?_of_settled hthird, and_self]
  · cases h

/-! ## All words -/

/-- Letters, some of which are known. -/
inductive Knows : List (Option Char) → List Char → Prop where
  | nil : Knows [] []
  | known {c : Char} {read : List (Option Char)} {letters : List Char} :
      Knows read letters → Knows (some c :: read) (c :: letters)
  | other {c : Char} {read : List (Option Char)} {letters : List Char} :
      Knows read letters → Knows (none :: read) (c :: letters)

/-- Goes through all ways to read on, as long as words may still be of interest, and checks what is said
about those that are. The letters read so far are in the order of the word. -/
def explore (check : List (Option Char) → Option α × Option β → Bool) :
    Nat → Tables α β → List (Option Char) → Bool
  | 0, _, _ => false
  | fuel + 1, tables, read =>
    withAll (fun ending use => use ending) tables.interest fun interest =>
    withAll (fun ending use => use ending) tables.second fun second =>
    withAll (fun ending use => use ending) tables.third fun third =>
      let tables : Tables α β := ⟨interest, second, third⟩
      if tables.interest.any (·.value) then
        match tables.settled? with
        | some (interest, answers) => interest ≠ some true || check read answers
        | none =>
          (Ending.first? tables.interest [] ≠ some true || check read (tables.answers [])) &&
            tables.asks.all (fun c => explore check fuel (tables.after c) (some c :: read)) &&
            explore check fuel tables.afterOther (none :: read)
      else true

theorem not_interests_of_values {tables : Tables α β} (h : ¬ tables.interest.any (·.value))
    (word : List Char) : ¬ tables.Interests word := by
  intro hinterests
  obtain ⟨ending, hending, hvalue⟩ := List.exists_of_findSome?_eq_some hinterests
  split at hvalue
  · exact h (List.any_eq_true.2 ⟨ending, hending, Option.some.inj hvalue⟩)
  · cases hvalue

/-- What `explore` accepts holds for all words in small letters. -/
theorem explore_sound {check : List (Option Char) → Option α × Option β → Bool}
    {fuel : Nat} {tables : Tables α β} {read : List (Option Char)}
    (h : explore check fuel tables read) {word letters : List Char} (hsmall : Small word)
    (hknows : Knows read letters) (hinterests : tables.Interests word) :
    ∃ front known read', word.reverse ++ letters = front ++ known ∧ Knows read' known ∧
      check read' (tables.answers word) := by
  -- The fuel bounds how many letters are read before the tables settle the rest of the word.
  induction fuel generalizing tables read word letters with
  | zero => cases h
  | succ fuel ih =>
    simp only [explore, withAll_eq _ fun _ _ => rfl] at h
    split at h
    · cases hsettled : tables.settled? with
      | some found =>
        obtain ⟨hinterest, hanswers⟩ := of_settled hsettled word
        rw [hanswers]
        exact ⟨_, _, _, rfl, hknows, by simpa [hsettled, hinterest.1 hinterests] using h⟩
      | none =>
        simp only [hsettled, Bool.and_eq_true, List.all_eq_true] at h
        obtain ⟨⟨hend, hasked⟩, hother⟩ := h
        cases word with
        | nil => exact ⟨_, _, _, rfl, hknows, by simpa [show _ = some true from hinterests] using hend⟩
        | cons c word =>
          have hword : Small word := fun d hd => hsmall d (List.mem_cons_of_mem _ hd)
          have hletters : (c :: word).reverse ++ letters = word.reverse ++ c :: letters := by simp
          rw [interests_cons] at hinterests
          rw [answers_cons, hletters]
          by_cases hc : c ∈ tables.asks
          · exact ih (hasked c hc) hword (.known hknows) hinterests
          · rw [after_of_notAsked (hsmall c (List.mem_cons_self ..)) hc] at hinterests ⊢
            exact ih hother hword (.other hknows) hinterests
    · next hvalues => exact absurd hinterests (not_interests_of_values hvalues word)

end Tables

end NamedQuery.Inflection
