import NamedQuery.Proofs.Inflection.Spelling

/-! # What the ending of a word says about the rules

All but one of the rules look at the end of a word, so a few of its last letters can show that a rule
is not for it, whatever stands before them (`Rule.Silent`). The exception, and with it the rule for
`oxen` as a whole word, concerns words with one beginning (`Rule.OnlyFor`). What is left of a list of
rules is the first one that fires (`findSome?_of_first`). -/

namespace NamedQuery.Inflection

open Identifier (continues isWord)

/-! ## Patterns against endings -/

/-- Whether a pattern, laid against the end of a text, accepts every letter that it meets there. The
one may reach further to the front than the other. -/
def meetsEnd (pattern : List Letter) (text : List Char) : Bool :=
  (pattern.reverse.zip text.reverse).all fun (letter, c) => letter.accepts c

theorem acceptsAll_iff {pattern : List Letter} {text : List Char} :
    acceptsAll pattern text ↔ pattern.length = text.length ∧
      (pattern.zip text).all fun (letter, c) => letter.accepts c := by
  induction pattern generalizing text with
  | nil => cases text <;> simp [acceptsAll]
  | cons letter pattern ih =>
    cases text with
    | nil => simp [acceptsAll]
    | cons c text =>
      simp only [acceptsAll, Bool.and_eq_true, ih, List.length_cons, List.zip_cons_cons,
        List.all_cons, Nat.add_right_cancel_iff]
      exact and_left_comm

theorem acceptsAll_reverse {pattern : List Letter} {text : List Char} :
    acceptsAll pattern.reverse text.reverse ↔ acceptsAll pattern text := by
  simp only [acceptsAll_iff, List.length_reverse]
  refine and_congr_right fun hlength => ?_
  rw [show pattern.reverse.zip text.reverse = (pattern.zip text).reverse from
    (List.reverse_zipWith hlength).symm, List.all_reverse]

theorem meetsEnd_of_acceptsAll {pattern : List Letter} {text : List Char} (front : List Char)
    (h : acceptsAll pattern text) : meetsEnd pattern (front ++ text) := by
  obtain ⟨hlength, hall⟩ := acceptsAll_iff.1 (acceptsAll_reverse.2 h)
  have hzip : pattern.reverse.zip (text.reverse ++ front.reverse) =
      pattern.reverse.zip text.reverse := by
    calc pattern.reverse.zip (text.reverse ++ front.reverse)
      _ = (pattern.reverse ++ []).zip (text.reverse ++ front.reverse) := by rw [List.append_nil]
      _ = pattern.reverse.zip text.reverse := by
        rw [List.zip_append hlength, List.zip_nil_left, List.append_nil]
  rw [meetsEnd, List.reverse_append, hzip, hall]

theorem all_zip_of_append {α β : Type} {p : α × β → Bool} {l : List α} {front rest : List β}
    (h : (l.zip (front ++ rest)).all p) : (l.zip front).all p := by
  induction front generalizing l with
  | nil => rw [List.zip_nil_right, List.all_nil]
  | cons b front ih =>
    cases l with
    | nil => rw [List.zip_nil_left, List.all_nil]
    | cons a l =>
      rw [List.cons_append, List.zip_cons_cons, List.all_cons, Bool.and_eq_true] at h
      rw [List.zip_cons_cons, List.all_cons, h.1, ih h.2, Bool.and_self]

theorem meetsEnd_of_append {pattern : List Letter} {front ending : List Char}
    (h : meetsEnd pattern (front ++ ending)) : meetsEnd pattern ending := by
  rw [meetsEnd, List.reverse_append] at h
  exact all_zip_of_append h

theorem smallLetter_of_continues {c : Char} (h : continues c) : smallLetter c = c := by
  have hall : ∀ n < 0x80, continues (Char.ofNat n) → smallLetter (Char.ofNat n) = Char.ofNat n := by
    decide
  exact forall_ascii (p := fun c => continues c → smallLetter c = c) hall (ascii_of_continues h) h

/-- A spelling in the rules accepts only itself among texts in small letters. -/
theorem acceptsAll_spelled_iff {spelling : String} {text : List Char} (hsmall : Small text) :
    acceptsAll (spelled spelling) text ↔ text = spelling.toList := by
  unfold spelled
  generalize spelling.toList = letters
  induction letters generalizing text with
  | nil => cases text <;> simp [acceptsAll]
  | cons letter letters ih =>
    cases text with
    | nil => simp [acceptsAll]
    | cons c text =>
      have hc := smallLetter_of_continues (hsmall c (List.mem_cons_self ..))
      rw [List.map_cons, acceptsAll, Bool.and_eq_true, Letter.accepts, hc, beq_iff_eq, List.cons.injEq,
        ih fun d hd => hsmall d (List.mem_cons_of_mem _ hd)]

/-! ## Rules -/

namespace Rule

/-- A rule is for no word with an ending. -/
def Silent (rule : Rule) (ending : List Char) : Prop :=
  rule.place ≠ .beginning ∧
    ∀ kept ∈ rule.kept, ∀ dropped ∈ rule.dropped, ¬ meetsEnd (kept ++ dropped) ending

instance (rule : Rule) (ending : List Char) : Decidable (rule.Silent ending) :=
  inferInstanceAs (Decidable (rule.place ≠ .beginning ∧
    ∀ kept ∈ rule.kept, ∀ dropped ∈ rule.dropped, ¬ meetsEnd (kept ++ dropped) ending))

/-- A rule is for no words but those with a beginning. -/
def OnlyFor (rule : Rule) (beginning : String) : Prop :=
  rule.place ≠ .ending ∧
    ∀ kept ∈ rule.kept, ∀ dropped ∈ rule.dropped, kept ++ dropped = spelled beginning

instance (rule : Rule) (beginning : String) : Decidable (rule.OnlyFor beginning) :=
  inferInstanceAs (Decidable (rule.place ≠ .ending ∧
    ∀ kept ∈ rule.kept, ∀ dropped ∈ rule.dropped, kept ++ dropped = spelled beginning))

theorem inflect?_eq_none_iff {rule : Rule} {word : List Char} :
    rule.inflect? word = none ↔ ∀ kept ∈ rule.kept, ∀ dropped ∈ rule.dropped,
      inflectWith? rule.place kept dropped rule.added word = none := by
  simp only [inflect?, List.findSome?_eq_none_iff]

theorem inflect?_of_silent {rule : Rule} {ending : List Char} (h : rule.Silent ending)
    (front : List Char) : rule.inflect? (front ++ ending) = none := by
  refine inflect?_eq_none_iff.2 fun kept hkept dropped hdropped => ?_
  have hnot : ∀ before rest, before ++ rest = front ++ ending →
      ¬ acceptsAll (kept ++ dropped) rest := by
    intro before rest heq haccepts
    have hmeets := meetsEnd_of_acceptsAll before haccepts
    rw [heq] at hmeets
    exact h.2 kept hkept dropped hdropped (meetsEnd_of_append hmeets)
  cases hplace : rule.place with
  | ending => simp only [inflectWith?, if_neg (hnot _ _ (List.take_append_drop _ _))]
  | whole => simp only [inflectWith?, if_neg (hnot [] (front ++ ending) rfl)]
  | beginning => exact absurd hplace h.1

theorem inflect?_of_onlyFor {rule : Rule} {beginning : String} (h : rule.OnlyFor beginning)
    {word : List Char} (hsmall : Small word) (hword : ¬ beginning.toList <+: word) :
    rule.inflect? word = none := by
  refine inflect?_eq_none_iff.2 fun kept hkept dropped hdropped => ?_
  have hpattern := h.2 kept hkept dropped hdropped
  have hnot : ∀ front, front <+: word → ¬ acceptsAll (kept ++ dropped) front := by
    intro front hfront haccepts
    rw [hpattern] at haccepts
    rw [(acceptsAll_spelled_iff fun c hc => hsmall c (hfront.mem hc)).1 haccepts] at hfront
    exact hword hfront
  cases hplace : rule.place with
  | ending => exact absurd hplace h.1
  | whole => simp only [inflectWith?, if_neg (hnot _ (List.prefix_refl _))]
  | beginning => simp only [inflectWith?, if_neg (hnot _ (List.take_prefix _ _))]

/-- A rule that keeps no letters in particular replaces the ending that it drops. -/
theorem inflect?_ending {dropped : List Letter} (added front : List Char) {ending : List Char}
    (h : acceptsAll dropped ending) :
    inflect? ⟨.ending, nothing, [dropped], added⟩ (front ++ ending) = some (front ++ added) := by
  have hlength : (front ++ ending).length - dropped.length = front.length := by
    rw [List.length_append, length_of_acceptsAll h, Nat.add_sub_cancel]
  simp only [inflect?, nothing, List.findSome?_cons, List.findSome?_nil, inflectWith?,
    List.nil_append, hlength, List.drop_left, h, if_true, List.length_nil, Nat.add_zero,
    List.take_left]

end Rule

/-- The first rule that fires is the one that counts. -/
theorem findSome?_of_first {α β : Type} {f : α → Option β} {earlier later : List α} {a : α} {b : β}
    (hearlier : ∀ x ∈ earlier, f x = none) (ha : f a = some b) :
    (earlier ++ a :: later).findSome? f = some b := by
  rw [List.findSome?_append, List.findSome?_eq_none_iff.2 hearlier, Option.none_or,
    List.findSome?_cons, ha]

end NamedQuery.Inflection
