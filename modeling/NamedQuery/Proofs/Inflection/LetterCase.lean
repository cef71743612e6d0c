import NamedQuery.Proofs.Inflection.Words

/-! # Inflection in either case

The rules look at letters without regard to case and add small letters, so a word in small letters is
inflected as the word itself is, in small letters (`Direction.inflectWord_lowered`). -/

namespace NamedQuery.Inflection

open Identifier (isWord)

/-! ## Patterns -/

theorem smallLetter_toLower (c : Char) : smallLetter c.toLower = smallLetter c := by
  cases hc : c.isUpper with
  | false => rw [toLower_of_not_isUpper hc]
  | true =>
    have hall : ∀ n < 0x80, smallLetter (Char.ofNat n).toLower = smallLetter (Char.ofNat n) := by
      decide
    exact forall_ascii (p := fun c => smallLetter c.toLower = smallLetter c) hall
      (ascii_of_isUpper hc)

theorem Letter.accepts_toLower (letter : Letter) (c : Char) :
    letter.accepts c.toLower = letter.accepts c := by
  cases letter <;> simp only [accepts, smallLetter_toLower]

theorem acceptsAll_lowered (pattern : List Letter) (word : List Char) :
    acceptsAll pattern (lowered word) = acceptsAll pattern word := by
  induction pattern generalizing word with
  | nil => cases word <;> rfl
  | cons letter pattern ih =>
    cases word with
    | nil => rfl
    | cons c word =>
      show (letter.accepts c.toLower && acceptsAll pattern (lowered word)) = _
      rw [Letter.accepts_toLower, ih, acceptsAll]

/-! ## Rules -/

theorem lowered_append (word other : List Char) :
    lowered (word ++ other) = lowered word ++ lowered other := List.map_append

theorem lowered_take (n : Nat) (word : List Char) : lowered (word.take n) = (lowered word).take n :=
  List.map_take

theorem lowered_drop (n : Nat) (word : List Char) : lowered (word.drop n) = (lowered word).drop n :=
  List.map_drop

namespace Rule

theorem inflectWith?_lowered (place : Place) (kept dropped : List Letter) {added : List Char}
    (hadded : Small added) (word : List Char) :
    inflectWith? place kept dropped added (lowered word) =
      (inflectWith? place kept dropped added word).map lowered := by
  have hadded := lowered_of_small hadded
  have hlength : (lowered word).length = word.length := List.length_map ..
  cases place with
  | ending | whole | beginning =>
    simp only [inflectWith?, hlength, ← lowered_drop, ← lowered_take, acceptsAll_lowered]
    split
    · simp only [Option.map_some, lowered_append, hadded]
    · rfl

theorem inflect?_lowered {rule : Rule} (h : Small rule.added) (word : List Char) :
    rule.inflect? (lowered word) = (rule.inflect? word).map lowered := by
  simp only [inflect?, inflectWith?_lowered _ _ _ h, List.map_findSome?, Function.comp_def]

end Rule

theorem findSome?_map_of_mem {α β γ : Type} {l : List α} {f : α → Option β} {g : α → Option γ}
    {image : γ → β} (h : ∀ a ∈ l, f a = (g a).map image) :
    l.findSome? f = (l.findSome? g).map image := by
  induction l with
  | nil => rfl
  | cons a l ih =>
    rw [List.findSome?_cons, List.findSome?_cons, h a (List.mem_cons_self ..),
      ih fun b hb => h b (List.mem_cons_of_mem _ hb)]
    cases g a <;> rfl

/-! ## Words -/

section Ascii

variable {word : List Char} (hascii : ∀ c ∈ word, c.toNat < 0x80)
include hascii

theorem not_isUpper_of_mem_lowered {c : Char} (hc : c ∈ lowered word) :
    c.toNat < 0x80 ∧ c.isUpper = false := by
  obtain ⟨d, hd, rfl⟩ := List.mem_map.1 hc
  have hall : ∀ n < 0x80, (Char.ofNat n).toLower.toNat < 0x80 ∧
      (Char.ofNat n).toLower.isUpper = false := by decide
  exact forall_ascii (p := fun c => c.toLower.toNat < 0x80 ∧ c.toLower.isUpper = false) hall
    (hascii d hd)

theorem lowered_lowered : lowered (lowered word) = lowered word := by
  have hsame : ∀ c ∈ lowered word, c.toLower = id c :=
    fun c hc => toLower_of_not_isUpper (not_isUpper_of_mem_lowered hascii hc).2
  rw [lowered, List.map_congr_left hsame, List.map_id]

theorem lower_lowered : Text.lower (lowered word) = Text.lower word := by
  rw [Text.lower_of_ascii hascii,
    Text.lower_of_ascii fun c hc => (not_isUpper_of_mem_lowered hascii hc).1]
  exact lowered_lowered hascii

/-- A word in small letters stands for a form as the dictionary has it. -/
theorem withCaseOf_lowered (form : List Char) : withCaseOf (lowered word) form = form := by
  unfold withCaseOf
  rw [if_neg]
  cases hhead : (lowered word).head? with
  | none => simp
  | some c =>
    obtain ⟨hc, hupper⟩ := not_isUpper_of_mem_lowered hascii (List.mem_of_head? hhead)
    simp [Text.isUppercase_of_ascii hc, hupper]

end Ascii

namespace Direction

/-- The dictionary of a direction is in small letters, and a capital makes its forms words. -/
structure InSmallLetters (d : Direction) : Prop where
  rules : ∀ rule ∈ d.rules, Small rule.added
  irregular : ∀ entry ∈ d.irregular, Small entry.2.toList ∧
    isWord (capitalize entry.2.toList) ∧ lowered (capitalize entry.2.toList) = entry.2.toList

theorem toPlural_inSmallLetters : toPlural.InSmallLetters := ⟨by decide, by decide⟩

theorem toSingular_inSmallLetters : toSingular.InSmallLetters := ⟨by decide, by decide⟩

variable {d : Direction} (hsmall : d.InSmallLetters) {word : List Char}
  (hascii : ∀ c ∈ word, c.toNat < 0x80)
include hsmall hascii

theorem irregular?_lowered : d.irregular? (lowered word) = (d.irregular? word).map lowered := by
  refine findSome?_map_of_mem fun entry hentry => ?_
  obtain ⟨hform, _, hcapital⟩ := hsmall.irregular entry hentry
  simp only [lower_lowered hascii]
  split
  · rfl
  · split
    · have hcase : lowered (withCaseOf word entry.2.toList) = entry.2.toList := by
        unfold withCaseOf
        split
        · exact hcapital
        · exact lowered_of_small hform
      rw [withCaseOf_lowered hascii, Option.map_some, hcase]
    · rfl

/-- A word in small letters is inflected as the word itself, in small letters. -/
theorem inflectWord_lowered : d.inflectWord (lowered word) = lowered (d.inflectWord word) := by
  have hempty : (lowered word).isEmpty = word.isEmpty := by cases word <;> rfl
  have hrules : d.rules.findSome? (·.inflect? (lowered word)) =
      (d.rules.findSome? (·.inflect? word)).map lowered :=
    findSome?_map_of_mem fun rule hrule => Rule.inflect?_lowered (hsmall.rules rule hrule) word
  unfold inflectWord
  rw [hempty, lower_lowered hascii, irregular?_lowered hsmall hascii, hrules]
  split
  · rfl
  · cases d.irregular? word with
    | some form => rfl
    | none => cases d.rules.findSome? (·.inflect? word) <;> rfl

end Direction

end NamedQuery.Inflection
