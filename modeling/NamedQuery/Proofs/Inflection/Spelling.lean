import NamedQuery.Proofs.Inflection.LetterCase

/-! # The singular in either spelling

A rule that leaves the first letter of a word makes a word of a word (`Rule.isWord_of_inflect?`), and
the rules for the singular all do. So a name in CamelCase still consists of words when its last one is
singular, and its singular has the same snake_case form as the other way round
(`underscore_singularize_camel`). -/

namespace NamedQuery.Inflection

open Identifier (continues isWord)

/-! ## Words from words -/

theorem length_of_acceptsAll {pattern : List Letter} {word : List Char}
    (h : acceptsAll pattern word) : pattern.length = word.length := by
  induction pattern generalizing word with
  | nil =>
    cases word with
    | nil => rfl
    | cons c word => cases h
  | cons letter pattern ih =>
    cases word with
    | nil => cases h
    | cons c word =>
      rw [acceptsAll, Bool.and_eq_true] at h
      rw [List.length_cons, List.length_cons, ih h.2]

/-- The front of a word, with more small letters behind it. -/
theorem isWord_take_append {word added : List Char} (h : isWord word) (hadded : Small added)
    {n : Nat} (hn : n ≠ 0) : isWord (word.take n ++ added) := by
  cases word with
  | nil => cases h
  | cons c rest =>
    cases n with
    | zero => exact absurd rfl hn
    | succ n =>
      obtain ⟨hc, hrest⟩ := isWord_cons_iff.1 h
      rw [List.take_succ_cons, List.cons_append]
      refine isWord_cons_iff.2 ⟨hc, Small.append ?_ hadded⟩
      exact fun d hd => hrest d (List.mem_of_mem_take hd)

theorem Small.drop {word : List Char} (h : Small word) (n : Nat) : Small (word.drop n) :=
  fun c hc => h c (List.mem_of_mem_drop hc)

theorem small_drop_of_isWord {word : List Char} (h : isWord word) {n : Nat} (hn : n ≠ 0) :
    Small (word.drop n) := by
  cases word with
  | nil => cases h
  | cons c rest =>
    cases n with
    | zero => exact absurd rfl hn
    | succ n => exact (isWord_cons_iff.1 h).2.drop n

namespace Rule

theorem isWord_of_inflectWith? {place : Place} {kept dropped : List Letter} {added word made : List Char}
    (hkeeps : kept ≠ [] ∨ place = .ending ∧ dropped.length < word.length) (hadded : Small added)
    (hword : isWord word) (h : inflectWith? place kept dropped added word = some made) :
    isWord made := by
  have hkept : kept ≠ [] → kept.length ≠ 0 := fun hne hlength =>
    hne (List.length_eq_zero_iff.1 hlength)
  -- In every place the capital in front of the word is among the letters that stay.
  cases place with
  | ending =>
    simp only [inflectWith?] at h
    split at h
    · next haccepts =>
      cases h
      refine isWord_take_append hword hadded ?_
      have hlength := length_of_acceptsAll haccepts
      rw [List.length_drop, List.length_append] at hlength
      rcases hkeeps with hne | ⟨_, hdropped⟩
      · have := hkept hne
        omega
      · rw [List.length_append]
        omega
    · cases h
  | whole =>
    simp only [inflectWith?] at h
    split at h
    · cases h
      rcases hkeeps with hne | ⟨hplace, _⟩
      · exact isWord_take_append hword hadded (hkept hne)
      · cases hplace
    · cases h
  | beginning =>
    simp only [inflectWith?] at h
    split at h
    · cases h
      rcases hkeeps with hne | ⟨hplace, _⟩
      · rw [List.append_assoc]
        refine isWord_take_append hword (hadded.append (small_drop_of_isWord hword ?_)) (hkept hne)
        rw [List.length_append]
        have := hkept hne
        omega
      · cases hplace
    · cases h

/-- A rule leaves the first letter of every word with a number of letters. -/
def KeepsFirst (rule : Rule) (length : Nat) : Prop :=
  ∀ kept ∈ rule.kept, ∀ dropped ∈ rule.dropped,
    kept ≠ [] ∨ rule.place = .ending ∧ dropped.length < length

instance (rule : Rule) (length : Nat) : Decidable (rule.KeepsFirst length) :=
  inferInstanceAs (Decidable (∀ kept ∈ rule.kept, ∀ dropped ∈ rule.dropped,
    kept ≠ [] ∨ rule.place = .ending ∧ dropped.length < length))

theorem KeepsFirst.mono {rule : Rule} {length length' : Nat} (h : rule.KeepsFirst length)
    (hle : length ≤ length') : rule.KeepsFirst length' := fun kept hkept dropped hdropped =>
  (h kept hkept dropped hdropped).imp_right fun hlt => ⟨hlt.1, Nat.lt_of_lt_of_le hlt.2 hle⟩

theorem isWord_of_inflect? {rule : Rule} {word made : List Char} (hkeeps : rule.KeepsFirst word.length)
    (hadded : Small rule.added) (hword : isWord word) (h : rule.inflect? word = some made) :
    isWord made := by
  obtain ⟨kept, hkept, h⟩ := List.exists_of_findSome?_eq_some h
  obtain ⟨dropped, hdropped, h⟩ := List.exists_of_findSome?_eq_some h
  exact isWord_of_inflectWith? (hkeeps kept hkept dropped hdropped) hadded hword h

end Rule

namespace Direction

variable {d : Direction} {word form : List Char}

theorem isWord_withCaseOf (hword : isWord word) (hform : isWord (capitalize form)) :
    isWord (withCaseOf word form) := by
  cases word with
  | nil => cases hword
  | cons c rest =>
    obtain ⟨hc, _⟩ := isWord_cons_iff.1 hword
    rwa [withCaseOf, if_pos]
    simpa [Text.isUppercase_of_ascii (ascii_of_isUpper hc)] using hc

/-- A word is inflected to a word, if the rules make words of it. -/
theorem isWord_inflectWord (hsmall : d.InSmallLetters) (hword : isWord word)
    (hrules : ∀ rule ∈ d.rules, ∀ made, rule.inflect? word = some made → isWord made) :
    isWord (d.inflectWord word) := by
  unfold inflectWord
  split
  · exact hword
  · cases hirregular : d.irregular? word with
    | some made =>
      obtain ⟨entry, hentry, hmade⟩ := List.exists_of_findSome?_eq_some hirregular
      simp only at hmade
      split at hmade
      · cases hmade
        exact hword
      · split at hmade
        · cases hmade
          exact isWord_withCaseOf hword (hsmall.irregular entry hentry).2.1
        · cases hmade
    | none =>
      cases hfound : d.rules.findSome? (·.inflect? word) with
      | none => exact hword
      | some made =>
        obtain ⟨rule, hrule, hmade⟩ := List.exists_of_findSome?_eq_some hfound
        exact hrules rule hrule made hmade

theorem isWord_singular (hword : isWord word) (hlong : 2 ≤ word.length) :
    isWord (toSingular.inflectWord word) := by
  have hkeeps : ∀ rule ∈ toSingular.rules, rule.KeepsFirst 2 := by decide
  refine isWord_inflectWord toSingular_inSmallLetters hword fun rule hrule made hmade => ?_
  exact Rule.isWord_of_inflect? ((hkeeps rule hrule).mono hlong)
    (toSingular_inSmallLetters.rules rule hrule) hword hmade

end Direction

/-! ## Names -/

theorem CamelWord.two_le_length {word : List Char} (h : CamelWord word) : 2 ≤ word.length := by
  cases h
  simp

/-- The singular of a name in CamelCase, all of whose words begin with a capital and a small letter,
is the same name in snake_case as the singular of its form in snake_case. -/
theorem underscore_singularize_camel {front : List (List Char)} {last : List Char}
    (h : ∀ word ∈ front ++ [last], CamelWord word) :
    let name := String.ofList ((front ++ [last]).flatten)
    underscore (singularize name) = singularize (underscore name) := by
  intro name
  have hfront : ∀ word ∈ front, CamelWord word := fun word hword => h word (by simp [hword])
  have hlast : CamelWord last := h last (by simp)
  have hsingular : isWord (Direction.toSingular.inflectWord last) :=
    Direction.isWord_singular hlast.isWord hlast.two_le_length
  have hascii := ascii_of_isWord hlast.isWord
  rw [singularize, String.toList_ofList, Direction.inflect_camel _ hfront hlast.isWord,
    underscore_camel hfront hsingular, underscore_camel hfront hlast.isWord, singularize,
    String.toList_ofList, List.map_append, List.map_append]
  -- Both have the words of the front, and then the singular of the last word in small letters.
  show _ = String.ofList (Direction.toSingular.inflect (snake (front.map lowered ++ [lowered last])))
  rw [Direction.inflect_snake _ _ (small_lowered hlast.isWord),
    Direction.inflectWord_lowered Direction.toSingular_inSmallLetters hascii]
  rfl

end NamedQuery.Inflection
