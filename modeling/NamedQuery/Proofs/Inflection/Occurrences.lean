import NamedQuery.Proofs.Inflection.Boundaries

/-! # Underscores by occurrences

`separate` walks through a name once and looks at the characters around every capital. The same
underscores come from two passes, each of which finds the occurrences of a pattern from the left and
without overlaps: at first an acronym before a word, then a small letter or a digit before a capital
(`separateAll_twice`). -/

namespace NamedQuery.Inflection

open Identifier (isLower_iff isDigit_iff isUpper_eq_false_of_continues)

/-! ## Patterns -/

/-- Capitals and digits make up acronyms. -/
def inAcronym (c : Char) : Bool :=
  c.isUpper || Text.isDecimalDigit c

/-- A capital and a small letter at the front of a text. -/
def wordStart? : List Char → Option (List Char)
  | c :: d :: _ => if c.isUpper && d.isLower then some [c, d] else none
  | _ => none

/-- An acronym at the front of a text and the start of a word behind it. The acronym is as long as
possible: it gives back no more than what the word starts with. -/
def acronym? : List Char → Option (List Char × List Char)
  | [] => none
  | c :: rest =>
    if inAcronym c then
      match acronym? rest with
      | some (acronym, start) => some (c :: acronym, start)
      | none => (wordStart? rest).map fun start => ([c], start)
    else none

/-- A small letter or a digit at the front of a text, and a capital behind it. -/
def seam? : List Char → Option (List Char × List Char)
  | c :: d :: _ =>
    if (c.isLower || Text.isDecimalDigit c) && d.isUpper then some ([c], [d]) else none
  | _ => none

/-- Puts an underscore between the two parts of every occurrence of a pattern. The search goes on
behind an occurrence, so the next `inside` characters are passed over. -/
def separateAll (pattern? : List Char → Option (List Char × List Char)) :
    Nat → List Char → List Char
  | _, [] => []
  | inside + 1, _ :: rest => separateAll pattern? inside rest
  | 0, c :: rest =>
    match pattern? (c :: rest) with
    | some (front, back) =>
      front ++ '_' :: back ++ separateAll pattern? (front.length + back.length - 1) rest
    | none => c :: separateAll pattern? 0 rest

/-- Inside an acronym an underscore is put only before its last capital. -/
example : String.ofList (separateAll acronym? 0 "HTTPCodeOf2Apis".toList) = "HTTP_CodeOf2_Apis" := by
  decide

/-! ## What the patterns find -/

theorem isDecimalDigit_eq_false_of_isLower {c : Char} (h : c.isLower) :
    Text.isDecimalDigit c = false := by
  rw [Text.isDecimalDigit_of_ascii (ascii_of_continues (continues_of_isLower h)), ← Bool.not_eq_true,
    isDigit_iff]
  rw [isLower_iff] at h
  omega

theorem isDecimalDigit_eq_false_of_isUpper {c : Char} (h : c.isUpper) :
    Text.isDecimalDigit c = false := by
  rw [Text.isDecimalDigit_of_ascii (ascii_of_isUpper h), isDigit_eq_false_of_isUpper h]

theorem inAcronym_eq_false_of_isLower {c : Char} (h : c.isLower) : inAcronym c = false := by
  rw [inAcronym, isDecimalDigit_eq_false_of_isLower h,
    isUpper_eq_false_of_continues (continues_of_isLower h), Bool.or_self]

theorem isLower_eq_false_of_inAcronym {c : Char} (h : inAcronym c) : c.isLower = false := by
  by_contra hlower
  rw [Bool.not_eq_false] at hlower
  exact absurd h (by rw [inAcronym_eq_false_of_isLower hlower]; exact Bool.false_ne_true)

theorem wordStart?_eq_some_iff {text start : List Char} :
    wordStart? text = some start ↔
      ∃ c d rest, text = c :: d :: rest ∧ c.isUpper ∧ d.isLower ∧ start = [c, d] := by
  constructor
  · intro h
    match text with
    | [] => cases h
    | [c] => cases h
    | c :: d :: rest =>
      rw [wordStart?] at h
      split at h
      next hstart =>
        cases h
        obtain ⟨hc, hd⟩ := Bool.and_eq_true_iff.1 hstart
        exact ⟨c, d, rest, rfl, hc, hd, rfl⟩
      next => cases h
  · rintro ⟨c, d, rest, rfl, hc, hd, rfl⟩
    rw [wordStart?, hc, hd]
    rfl

theorem acronym?_eq_some {text front back : List Char} (h : acronym? text = some (front, back)) :
    ∃ c d rest, text = front ++ c :: d :: rest ∧ back = [c, d] ∧ c.isUpper ∧ d.isLower ∧
      front ≠ [] ∧ ∀ e ∈ front, inAcronym e := by
  induction text generalizing front with
  | nil => cases h
  | cons e text ih =>
    rw [acronym?] at h
    split at h
    next he =>
      split at h
      next acronym start hrest =>
        cases h
        obtain ⟨c, d, rest, rfl, hback, hc, hd, _, hacronym⟩ := ih hrest
        exact ⟨c, d, rest, rfl, hback, hc, hd, List.cons_ne_nil _ _,
          List.forall_mem_cons.2 ⟨he, hacronym⟩⟩
      next hrest =>
        obtain ⟨start, hstart, hparts⟩ := Option.map_eq_some_iff.1 h
        cases hparts
        obtain ⟨c, d, rest, rfl, hc, hd, rfl⟩ := wordStart?_eq_some_iff.1 hstart
        exact ⟨c, d, rest, rfl, rfl, hc, hd, List.cons_ne_nil _ _,
          List.forall_mem_singleton.2 he⟩
    next => cases h

/-- Behind a character of an acronym that is no occurrence there is no start of a word. -/
theorem wordStart?_of_acronym?_eq_none {c : Char} {rest : List Char} (hc : inAcronym c)
    (h : acronym? (c :: rest) = none) : wordStart? rest = none := by
  rw [acronym?, if_pos hc] at h
  split at h
  next => cases h
  next => exact Option.map_eq_none_iff.1 h

/-! ## From occurrences to neighbours -/

/-- Puts an underscore before every character at which a test holds. The test sees the character
before, the character itself and the one that may follow. -/
def separateWhere (test : Char → Char → Option Char → Bool) (prev : Option Char) :
    List Char → List Char
  | [] => []
  | c :: rest =>
    (if prev.any fun p => test p c rest.head? then ['_', c] else [c]) ++
      separateWhere test (some c) rest

/-- A word starts behind an acronym. -/
def behindAcronym (prev c : Char) (next : Option Char) : Bool :=
  inAcronym prev && c.isUpper && next.any Char.isLower

/-- A capital stands behind a small letter or a digit. -/
def behindSmall (prev c : Char) (_ : Option Char) : Bool :=
  (prev.isLower || Text.isDecimalDigit prev) && c.isUpper

theorem isBoundary_eq_behind (prev c : Char) (next : Option Char) :
    Alphabet.ascii.isBoundary prev c next = (behindAcronym prev c next || behindSmall prev c next) := by
  simp only [Alphabet.isBoundary, Alphabet.ascii, behindAcronym, behindSmall, inAcronym]
  cases prev.isUpper <;> cases prev.isLower <;> cases Text.isDecimalDigit prev <;>
    cases c.isUpper <;> cases next.any Char.isLower <;> rfl

theorem separateAfter_eq_separateWhere (prev : Option Char) (name : List Char) :
    separateAfter prev name = separateWhere Alphabet.ascii.isBoundary prev name := by
  induction name generalizing prev with
  | nil => rfl
  | cons c rest ih => rw [separateAfter, separateWhere, ih]

theorem separateWhere_cons_of_not {test : Char → Char → Option Char → Bool} {prev : Option Char}
    {c : Char} {rest : List Char} (h : ∀ p ∈ prev, test p c rest.head? = false) :
    separateWhere test prev (c :: rest) = c :: separateWhere test (some c) rest := by
  rw [separateWhere, (Option.any_eq_false _ _).2 h]
  rfl

theorem separateWhere_cons_of_holds {test : Char → Char → Option Char → Bool} {p c : Char}
    {rest : List Char} (h : test p c rest.head?) :
    separateWhere test (some p) (c :: rest) = '_' :: c :: separateWhere test (some c) rest := by
  rw [separateWhere, Option.any_some, h]
  rfl

theorem behindAcronym_eq_false_of_notLower {next : Option Char}
    (h : next.any Char.isLower = false) (prev c : Char) : behindAcronym prev c next = false := by
  rw [behindAcronym, h, Bool.and_false]

theorem behindAcronym_eq_false_of_wordStart {c : Char} {rest : List Char}
    (h : wordStart? (c :: rest) = none) (prev : Char) : behindAcronym prev c rest.head? = false := by
  cases rest with
  | nil => exact behindAcronym_eq_false_of_notLower rfl prev c
  | cons d rest =>
    rw [wordStart?] at h
    split at h
    next => cases h
    next hstart =>
      rw [behindAcronym, Bool.and_assoc, List.head?_cons, Option.any_some,
        Bool.eq_false_iff.2 hstart, Bool.and_false]

/-- Within an acronym nothing is put, and then one underscore before the word. -/
theorem separateWhere_behindAcronym {front : List Char} (hne : front ≠ [])
    (hfront : ∀ e ∈ front, inAcronym e) {c d : Char} (hc : c.isUpper) (hd : d.isLower)
    (prev : Option Char) (rest : List Char) :
    separateWhere behindAcronym prev (front ++ c :: d :: rest) =
      front ++ '_' :: c :: d :: separateWhere behindAcronym (some d) rest := by
  induction front generalizing prev with
  | nil => exact absurd rfl hne
  | cons e front ih =>
    obtain ⟨he, hfront⟩ := List.forall_mem_cons.1 hfront
    have hnext : (front ++ c :: d :: rest).head?.any Char.isLower = false := by
      cases front with
      | nil => exact isLower_eq_false_of_isUpper hc
      | cons e' front => exact isLower_eq_false_of_inAcronym (hfront e' (List.mem_cons_self ..))
    rw [List.cons_append, List.cons_append,
      separateWhere_cons_of_not fun p _ => behindAcronym_eq_false_of_notLower hnext p e]
    cases front with
    | nil =>
      have hword : behindAcronym e c (some d) = true := by
        rw [behindAcronym, he, hc, Option.any_some, hd, Bool.and_self, Bool.and_self]
      have hsmall : behindAcronym c d rest.head? = false := by
        rw [behindAcronym, isUpper_eq_false_of_continues (continues_of_isLower hd), Bool.and_false,
          Bool.false_and]
      rw [List.nil_append, separateWhere_cons_of_holds hword, separateWhere_cons_of_not]
      · rfl
      · rintro _ ⟨⟩
        exact hsmall
    | cons e' front => rw [ih (List.cons_ne_nil _ _) hfront]

/-! ## Both passes -/

theorem separateAll_acronym? (inside : Nat) {name : List Char} {prev : Option Char}
    (h : ∀ p ∈ prev, inAcronym p → wordStart? (name.drop inside) = none) :
    separateAll acronym? inside name = separateWhere behindAcronym prev (name.drop inside) := by
  -- Behind a character that could begin an acronym no word starts, or the occurrence would have been
  -- found there.
  fun_induction separateAll acronym? inside name generalizing prev with
  | case1 inside => rw [List.drop_nil, separateWhere]
  | case2 inside c rest ih => exact ih h
  | case3 c rest front back hfound ih =>
    obtain ⟨d, e, behind, htext, rfl, hd, he, hne, hfront⟩ := acronym?_eq_some hfound
    have hdrop : rest.drop (front.length + [d, e].length - 1) = behind := by
      have hall : (c :: rest).drop (front.length + 2) = behind := by
        rw [htext, List.drop_append]
        simp
      exact hall
    have hbehind : ∀ p ∈ some e, inAcronym p →
        wordStart? (rest.drop (front.length + [d, e].length - 1)) = none := by
      rintro _ ⟨⟩ hacronym
      rw [inAcronym_eq_false_of_isLower he] at hacronym
      cases hacronym
    rw [ih hbehind, hdrop, List.drop_zero, htext, separateWhere_behindAcronym hne hfront hd he,
      List.append_assoc]
    rfl
  | case4 c rest hnone ih =>
    have hhead : ∀ p ∈ prev, behindAcronym p c rest.head? = false := by
      intro p hp
      by_cases hacronym : inAcronym p
      · exact behindAcronym_eq_false_of_wordStart (h p hp hacronym) p
      · rw [behindAcronym, Bool.eq_false_iff.2 hacronym, Bool.false_and, Bool.false_and]
    have hbehind : ∀ p ∈ some c, inAcronym p → wordStart? (rest.drop 0) = none := by
      rintro _ ⟨⟩ hc
      exact wordStart?_of_acronym?_eq_none hc hnone
    rw [List.drop_zero, separateWhere_cons_of_not hhead, ih hbehind, List.drop_zero]

theorem seam?_eq_some {text front back : List Char} (h : seam? text = some (front, back)) :
    ∃ c d rest, text = c :: d :: rest ∧ front = [c] ∧ back = [d] ∧
      (c.isLower || Text.isDecimalDigit c) ∧ d.isUpper := by
  match text with
  | [] => cases h
  | [c] => cases h
  | c :: d :: rest =>
    rw [seam?] at h
    split at h
    next hseam =>
      cases h
      obtain ⟨hc, hd⟩ := Bool.and_eq_true_iff.1 hseam
      exact ⟨c, d, rest, rfl, rfl, rfl, hc, hd⟩
    next => cases h

theorem behindSmall_of_seam?_eq_none {c d : Char} {rest : List Char}
    (h : seam? (c :: d :: rest) = none) (next : Option Char) : behindSmall c d next = false := by
  rw [seam?] at h
  split at h
  next => cases h
  next hseam => exact Bool.eq_false_iff.2 hseam

theorem separateAll_seam? (inside : Nat) {name : List Char} {prev : Option Char}
    (h : ∀ p ∈ prev, ∀ c ∈ (name.drop inside).head?, ∀ next, behindSmall p c next = false) :
    separateAll seam? inside name = separateWhere behindSmall prev (name.drop inside) := by
  fun_induction separateAll seam? inside name generalizing prev with
  | case1 inside => rw [List.drop_nil, separateWhere]
  | case2 inside c rest ih => exact ih h
  | case3 c rest front back hfound ih =>
    obtain ⟨c', d, behind, htext, rfl, rfl, hc, hd⟩ := seam?_eq_some hfound
    cases htext
    have hseam : behindSmall c d behind.head? = true := by
      rw [behindSmall, hc, hd, Bool.and_self]
    have hbehind : ∀ p ∈ some d, ∀ e ∈ ((d :: behind).drop ([c].length + [d].length - 1)).head?,
        ∀ next, behindSmall p e next = false := by
      rintro _ ⟨⟩ e _ next
      rw [behindSmall, isLower_eq_false_of_isUpper hd, isDecimalDigit_eq_false_of_isUpper hd,
        Bool.or_self, Bool.false_and]
    rw [ih hbehind, List.drop_zero, separateWhere_cons_of_not fun p hp => h p hp c rfl _,
      separateWhere_cons_of_holds hseam]
    rfl
  | case4 c rest hnone ih =>
    have hbehind : ∀ p ∈ some c, ∀ d ∈ (rest.drop 0).head?, ∀ next, behindSmall p d next = false := by
      rintro _ ⟨⟩ d hd next
      cases rest with
      | nil => cases hd
      | cons e rest =>
        cases hd
        exact behindSmall_of_seam?_eq_none hnone next
    rw [List.drop_zero, separateWhere_cons_of_not fun p hp => h p hp c rfl _, ih hbehind,
      List.drop_zero]

/-- The second pass sees no capital directly behind an underscore of the first one. -/
theorem separateWhere_separateWhere (prev : Option Char) (name : List Char) :
    separateWhere behindSmall prev (separateWhere behindAcronym prev name) =
      separateWhere Alphabet.ascii.isBoundary prev name := by
  induction name generalizing prev with
  | nil => rfl
  | cons c rest ih =>
    by_cases hacronym : ∃ p ∈ prev, behindAcronym p c rest.head?
    · obtain ⟨p, rfl, hacronym⟩ := hacronym
      have hboundary : Alphabet.ascii.isBoundary p c rest.head? := by
        rw [isBoundary_eq_behind, hacronym, Bool.true_or]
      rw [separateWhere_cons_of_holds hacronym, separateWhere_cons_of_holds hboundary,
        separateWhere_cons_of_not fun _ _ => Bool.and_false _, separateWhere_cons_of_not, ih]
      rintro _ ⟨⟩
      rfl
    · have hnone : ∀ p ∈ prev, behindAcronym p c rest.head? = false :=
        fun p hp => Bool.eq_false_iff.2 fun h => hacronym ⟨p, hp, h⟩
      have hsame : (prev.any fun p => Alphabet.ascii.isBoundary p c rest.head?) =
          prev.any fun p => behindSmall p c rest.head? := by
        cases prev with
        | none => rfl
        | some p => rw [Option.any_some, isBoundary_eq_behind, hnone p rfl, Bool.false_or]; rfl
      rw [separateWhere_cons_of_not hnone]
      simp only [separateWhere, ih, hsame]
      rfl

/-- Two passes put the underscores of `separate`. -/
theorem separateAll_twice (name : List Char) :
    separateAll seam? 0 (separateAll acronym? 0 name) = separate name := by
  have hacronyms : separateAll acronym? 0 name = separateWhere behindAcronym none name :=
    separateAll_acronym? 0 fun _ h => nomatch h
  have hseams : ∀ text, separateAll seam? 0 text = separateWhere behindSmall none text :=
    fun _ => separateAll_seam? 0 fun _ h => nomatch h
  rw [hacronyms, hseams, separateWhere_separateWhere, separate, separateAfter_eq_separateWhere]

end NamedQuery.Inflection
