import NamedQuery.Proofs.Inflection.LetterCase
import NamedQuery.Proofs.Inflection.Occurrences

/-! # The last word of a name

Two functions look for the beginnings of words: `splitLast` finds the last one, and `underscore` marks all
of them. In names of ASCII they agree: what `underscore` makes of a name is what it makes of all before
the last word, an underscore if none stands there, and the last word in small letters
(`underscore_splitLast`). -/

namespace NamedQuery.Inflection

open Identifier (isUpper_iff isLower_iff isDigit_iff)

/-! ## Where the last word begins -/

/-- No word begins in a text that stands behind `prev`: neither behind an underscore, for there is none,
nor with a capital. -/
def Alphabet.Unbroken (a : Alphabet) : Option Char → List Char → Prop
  | _, [] => True
  | prev, c :: rest =>
    c ≠ '_' ∧ (∀ p ∈ prev, a.isBoundary p c rest.head? = false) ∧ a.Unbroken (some c) rest

/-- The last word of a text behind `prev` begins where `front` ends. -/
inductive LastBegins (prev : Option Char) (front : List Char) : List Char → Prop where
  | underscore {last : List Char} : front.getLast? = some '_' →
      Alphabet.unicode.Unbroken (some '_') last → LastBegins prev front last
  | capital {p c : Char} {rest : List Char} : front.getLast?.or prev = some p →
      Alphabet.unicode.isBoundary p c rest.head? → Alphabet.unicode.Unbroken (some c) rest →
      LastBegins prev front (c :: rest)

theorem Alphabet.Unbroken.of_none {a : Alphabet} {prev : Option Char} {text : List Char}
    (h : a.Unbroken prev text) : a.Unbroken none text := by
  cases text with
  | nil => trivial
  | cons c rest => exact ⟨h.1, (by rintro _ ⟨⟩), h.2.2⟩

theorem LastBegins.cons {c : Char} {prev : Option Char} {front last : List Char}
    (h : LastBegins (some c) front last) : LastBegins prev (c :: front) last := by
  cases h with
  | underscore hlast hrest =>
    refine .underscore ?_ hrest
    rw [List.getLast?_cons, hlast, Option.getD_some]
  | capital hlast hboundary hrest =>
    refine .capital ?_ hboundary hrest
    rw [getLast?_cons_or, hlast]

/-- Either no word begins in what is left to read, or the split is where the last one does. -/
theorem splitLastAfter_cases (before word : List Char) (prev : Option Char) (rest : List Char) :
    Alphabet.unicode.Unbroken prev rest ∧
      splitLastAfter before word prev rest = (before.reverse, word.reverse ++ rest) ∨
    ∃ front last, rest = front ++ last ∧ LastBegins prev front last ∧
      splitLastAfter before word prev rest = (before.reverse ++ word.reverse ++ front, last) := by
  -- A word that begins in `rest` makes the last one begin there too; otherwise the word that is being
  -- read is the last.
  induction rest generalizing before word prev with
  | nil => exact .inl ⟨trivial, by simp [splitLastAfter]⟩
  | cons c rest ih =>
    rw [splitLastAfter]
    split
    next hunderscore =>
      subst hunderscore
      rcases ih ('_' :: word ++ before) [] (some '_') with
        ⟨hrest, hsplit⟩ | ⟨front, last, rfl, hlast, hsplit⟩
      · exact .inr ⟨['_'], rest, rfl, .underscore rfl hrest, hsplit.trans (by simp)⟩
      · exact .inr ⟨'_' :: front, last, rfl, hlast.cons, hsplit.trans (by simp)⟩
    next hne =>
      split
      next hany =>
        obtain ⟨p, hp, hboundary⟩ := (Option.any_eq_true _ _).1 hany
        rcases ih (word ++ before) [c] (some c) with
          ⟨hrest, hsplit⟩ | ⟨front, last, rfl, hlast, hsplit⟩
        · exact .inr ⟨[], c :: rest, rfl, .capital hp hboundary hrest, hsplit.trans (by simp)⟩
        · exact .inr ⟨c :: front, last, rfl, hlast.cons, hsplit.trans (by simp)⟩
      next hnone =>
        have hnone := (Option.any_eq_false _ _).1 (Bool.eq_false_iff.2 hnone)
        rcases ih before (c :: word) (some c) with
          ⟨hrest, hsplit⟩ | ⟨front, last, rfl, hlast, hsplit⟩
        · exact .inl ⟨⟨hne, hnone, hrest⟩, hsplit.trans (by simp)⟩
        · exact .inr ⟨c :: front, last, rfl, hlast.cons, hsplit.trans (by simp)⟩

theorem LastBegins.unbroken {prev : Option Char} {front last : List Char}
    (h : LastBegins prev front last) : Alphabet.unicode.Unbroken none last := by
  cases h with
  | underscore _ hrest => exact hrest.of_none
  | @capital p c rest _ hboundary hrest =>
    refine ⟨?_, (by rintro _ ⟨⟩), hrest⟩
    rintro rfl
    exact Bool.false_ne_true hboundary

/-- A name is its last word, or its last word begins within it. -/
theorem splitLast_cases {name front last : List Char} (h : splitLast name = (front, last)) :
    Alphabet.unicode.Unbroken none last ∧ (front = [] ∨ LastBegins none front last) := by
  rcases splitLastAfter_cases [] [] none name with ⟨hname, hsplit⟩ | ⟨front', last', _, hlast, hsplit⟩
  · obtain ⟨rfl, rfl⟩ : [] = front ∧ name = last := by simpa using hsplit.symm.trans h
    exact ⟨hname, .inl rfl⟩
  · obtain ⟨rfl, rfl⟩ : front' = front ∧ last' = last := by simpa using hsplit.symm.trans h
    exact ⟨hlast.unbroken, .inr hlast⟩

/-! ## Underscores around the last word -/

section Ascii

variable {front last text : List Char} {prev : Option Char}

theorem Alphabet.Unbroken.ascii (hprev : ∀ p ∈ prev, p.toNat < 0x80)
    (htext : ∀ c ∈ text, c.toNat < 0x80) (h : unicode.Unbroken prev text) :
    Alphabet.ascii.Unbroken prev text := by
  induction text generalizing prev with
  | nil => trivial
  | cons c rest ih =>
    obtain ⟨hc, hrest⟩ := List.forall_mem_cons.1 htext
    have hnext : ∀ n ∈ rest.head?, n.toNat < 0x80 := fun n hn => hrest n (List.mem_of_mem_head? hn)
    refine ⟨h.1, fun p hp => ?_, ih (by rintro _ ⟨⟩; exact hc) hrest h.2.2⟩
    rw [← isBoundary_unicode_eq_ascii (hprev p hp) hc hnext]
    exact h.2.1 p hp

theorem separateAfter_of_unbroken (h : Alphabet.ascii.Unbroken prev text) :
    separateAfter prev text = text := by
  induction text generalizing prev with
  | nil => rfl
  | cons c rest ih =>
    rw [separateAfter, (Option.any_eq_false _ _).2 h.2.1, ih h.2.2]
    rfl

/-- The last character of a text is seen alike whether the end follows or no small letter. -/
theorem separateAfter_append (prev : Option Char)
    (h : last.head?.any Char.isLower = false ∨ front.getLast? = some '_') :
    separateAfter prev (front ++ last) =
      separateAfter prev front ++ separateAfter (front.getLast?.or prev) last := by
  induction front generalizing prev with
  | nil => rfl
  | cons c front ih =>
    have hseen : ∀ p, Alphabet.ascii.isBoundary p c (front ++ last).head? =
        Alphabet.ascii.isBoundary p c front.head? := by
      intro p
      cases front with
      | cons d front => rfl
      | nil =>
        rcases h with hlast | hunderscore
        · rw [List.nil_append, Alphabet.isBoundary, Alphabet.isBoundary]
          show (c.isUpper && (_ || (_ && last.head?.any Char.isLower))) = _
          rw [hlast]
          rfl
        · cases hunderscore
          rfl
    have hfront : last.head?.any Char.isLower = false ∨ front.getLast? = some '_' ∨ front = [] := by
      rcases h with hlast | hunderscore
      · exact .inl hlast
      · cases front with
        | nil => exact .inr (.inr rfl)
        | cons d front => exact .inr (.inl (by rwa [List.getLast?_cons_cons] at hunderscore))
    have hrest : separateAfter (some c) (front ++ last) =
        separateAfter (some c) front ++ separateAfter (front.getLast?.or (some c)) last := by
      rcases hfront with hlast | hunderscore | rfl
      · exact ih (some c) (.inl hlast)
      · exact ih (some c) (.inr hunderscore)
      · rfl
    rw [List.cons_append, separateAfter, separateAfter, hrest, getLast?_cons_or, List.append_assoc]
    simp only [hseen]

/-- What `underscore` puts between the last word of a name and all before it: an underscore, unless one
stands there or there is nothing to join. -/
def joint (front last : List Char) : List Char :=
  if front ≠ [] ∧ front.getLast? ≠ some '_' ∧ last ≠ [] then ['_'] else []

/-- All before the last word is taken for itself, and the last word is left as it is. -/
theorem separate_append_of_lastBegins (hfront : ∀ c ∈ front, c.toNat < 0x80)
    (hlast : ∀ c ∈ last, c.toNat < 0x80) (h : LastBegins none front last) :
    separate (front ++ last) = separate front ++ joint front last ++ last := by
  cases h with
  | underscore hunderscore hrest =>
    have hjoint : joint front last = [] := if_neg fun hjoint => hjoint.2.1 hunderscore
    have hseparate : separateAfter (some '_') last = last :=
      separateAfter_of_unbroken (hrest.ascii (by rintro _ ⟨⟩; decide) hlast)
    rw [separate, separateAfter_append none (.inr hunderscore), hunderscore, Option.some_or, hseparate,
      hjoint, List.append_nil]
    rfl
  | @capital p c rest hp hboundary hrest =>
    obtain ⟨hc, htail⟩ := List.forall_mem_cons.1 hlast
    rw [Option.or_none] at hp
    have hnext : ∀ n ∈ rest.head?, n.toNat < 0x80 := fun n hn => htail n (List.mem_of_mem_head? hn)
    rw [Alphabet.isBoundary_unicode_eq_ascii (hfront p (List.mem_of_getLast? hp)) hc hnext] at hboundary
    have hhead : (c :: rest).head?.any Char.isLower = false :=
      isLower_eq_false_of_isUpper (Bool.and_eq_true_iff.1 hboundary).1
    -- Behind an underscore a capital would be no boundary, so the joint is needed.
    have hjoint : joint front (c :: rest) = ['_'] := by
      refine if_pos ⟨?_, ?_, List.cons_ne_nil _ _⟩
      · rintro rfl
        cases hp
      · intro hunderscore
        cases hp.symm.trans hunderscore
        exact Bool.false_ne_true ((Bool.and_false _).symm.trans hboundary)
    have hseparate : separateAfter (some c) rest = rest :=
      separateAfter_of_unbroken (hrest.ascii (by rintro _ ⟨⟩; exact hc) htail)
    rw [separate, separateAfter_append none (.inl hhead), Option.or_none, hp, separateAfter,
      Option.any_some, hboundary, hseparate, hjoint, List.append_assoc]
    rfl

end Ascii

/-! ## Names of ASCII -/

/-- Letters and digits of ASCII, and underscores. -/
def IsNameChar (c : Char) : Prop := c.isAlphanum ∨ c = '_'

instance (c : Char) : Decidable (IsNameChar c) := inferInstanceAs (Decidable (_ ∨ _))

theorem IsNameChar.ascii {c : Char} (h : IsNameChar c) : c.toNat < 0x80 := by
  rcases h with hletter | rfl
  · change ((c.isUpper || c.isLower) || c.isDigit) = true at hletter
    rw [Bool.or_eq_true, Bool.or_eq_true, isUpper_iff, isLower_iff, isDigit_iff] at hletter
    omega
  · decide

theorem IsNameChar.unhyphened {c : Char} (h : IsNameChar c) : unhyphened c = c := by
  refine if_neg ?_
  rintro rfl
  exact absurd h (by rw [IsNameChar]; decide)

theorem mem_separateAfter {prev : Option Char} {name : List Char} {c : Char}
    (h : c ∈ separateAfter prev name) : c = '_' ∨ c ∈ name := by
  induction name generalizing prev with
  | nil => cases h
  | cons d rest ih =>
    rw [separateAfter, List.mem_append] at h
    rcases h with hhere | hrest
    · split at hhere
      · rcases List.mem_cons.1 hhere with rfl | hd
        · exact .inl rfl
        · exact .inr (List.mem_cons.2 (.inl (List.mem_singleton.1 hd)))
      · exact .inr (List.mem_cons.2 (.inl (List.mem_singleton.1 hhere)))
    · exact (ih hrest).imp_right (List.mem_cons_of_mem d)

theorem underscore_of_nameChars {name : List Char} (h : ∀ c ∈ name, IsNameChar c) :
    underscore (String.ofList name) = String.ofList (lowered (separate name)) := by
  have hchars : ∀ c ∈ separate name, IsNameChar c := by
    intro c hc
    rcases mem_separateAfter hc with rfl | hc
    · exact .inr rfl
    · exact h c hc
  have hplain : (separate name).map unhyphened = separate name := by
    rw [List.map_congr_left fun c hc => (hchars c hc).unhyphened, List.map_id']
  rw [underscore, String.toList_ofList, hplain, Text.lower_of_ascii fun c hc => (hchars c hc).ascii]
  rfl

/-- `underscore` makes of a name what it makes of all before the last word, an underscore unless one
stands there already or there is nothing to join, and the last word in small letters. Nothing is put into
that word, for no further one begins in it. And it does not matter that `underscore` sees all boundaries
at once: two passes, over the acronyms before words and over the seams, come to the same. -/
theorem underscore_splitLast {name : String} (h : ∀ c ∈ name.toList, IsNameChar c)
    {front last : List Char} (hsplit : splitLast name.toList = (front, last)) :
    front ++ last = name.toList ∧
    underscore name = underscore (String.ofList front) ++ String.ofList (joint front last) ++
      String.ofList (Text.lower last) ∧
    Alphabet.unicode.Unbroken none last ∧
    underscore (String.ofList last) = String.ofList (Text.lower last) ∧
    underscore name = String.ofList (Text.lower
      ((separateAll seam? 0 (separateAll acronym? 0 name.toList)).map unhyphened)) := by
  have happend : front ++ last = name.toList := by
    rw [← splitLast_append name.toList, hsplit]
  rw [← happend] at h
  obtain ⟨hfront, hlast⟩ := List.forall_mem_append.1 h
  have hascii : ∀ c ∈ last, c.toNat < 0x80 := fun c hc => (hlast c hc).ascii
  have hlower : Text.lower last = lowered last := Text.lower_of_ascii hascii
  obtain ⟨hunbroken, hbegins⟩ := splitLast_cases hsplit
  have hword : separate last = last :=
    separateAfter_of_unbroken (hunbroken.ascii (by rintro _ ⟨⟩) hascii)
  have hname : separate (front ++ last) = separate front ++ joint front last ++ last := by
    rcases hbegins with rfl | hbegins
    · exact hword
    · exact separate_append_of_lastBegins (fun c hc => (hfront c hc).ascii) hascii hbegins
  have hjoint : lowered (joint front last) = joint front last := by
    rw [joint]
    split <;> rfl
  refine ⟨happend, ?_, hunbroken, ?_, ?_⟩
  · rw [← String.ofList_toList (s := name), ← happend, underscore_of_nameChars h,
      underscore_of_nameChars hfront, hname, hlower, lowered_append, lowered_append, hjoint,
      String.ofList_append, String.ofList_append]
  · rw [underscore_of_nameChars hlast, hword, hlower]
  · rw [separateAll_twice, underscore]

/-- The last capital of an acronym belongs to the next word. -/
example : splitLast "blog_HTTPCode".toList = ("blog_HTTP".toList, "Code".toList) := by decide

theorem blogHttpCode_ends_in_code :
    (∀ c ∈ "blog_HTTPCode2".toList, IsNameChar c) ∧
    splitLast "blog_HTTPCode2".toList = ("blog_HTTP".toList, "Code2".toList) ∧
    underscore "blog_HTTPCode2" = underscore "blog_HTTP" ++ "_" ++ "code2" ∧
    underscore "Code2" = "code2" := by
  have hall : "blog_HTTPCode2".toList.all (IsNameChar ·) := by decide
  have hchars : ∀ c ∈ "blog_HTTPCode2".toList, IsNameChar c := fun c hc =>
    of_decide_eq_true (List.all_eq_true.1 hall c hc)
  have hsplit : splitLast "blog_HTTPCode2".toList = ("blog_HTTP".toList, "Code2".toList) := by decide
  obtain ⟨_, hname, _, hlast, _⟩ := underscore_splitLast hchars hsplit
  exact ⟨hchars, hsplit, hname, hlast⟩

end NamedQuery.Inflection
