import NamedQuery.Proofs.Inflection.Reading

/-! # Inflection as a table of endings

For words in small letters the rules of a direction, and the words of the dictionary before them, are
one table of endings (`Direction.endings`): the first ending that a word has says which letters are
dropped and which are added (`inflectWord_eq_edit`). -/

namespace NamedQuery.Inflection

open Identifier (continues)

/-- A number of letters dropped at the end of a word, and letters put in their place. -/
structure Edit where
  dropped : List Letter
  added : List Char
deriving DecidableEq

def Edit.apply (edit : Edit) (word : List Char) : List Char :=
  word.take (word.length - edit.dropped.length) ++ edit.added

def Edit.keep : Edit := ⟨[], []⟩

theorem Edit.apply_keep (word : List Char) : Edit.keep.apply word = word := by
  simp [apply, keep]

def Edit.inView {κ : Type} (edit : Edit) (use : Edit → κ) : κ :=
  withAll withLetter edit.dropped fun dropped =>
    withAll withChar edit.added fun added => use ⟨dropped, added⟩

theorem Edit.inView_eq {κ : Type} (edit : Edit) (use : Edit → κ) : edit.inView use = use edit := by
  rw [inView, withAll_eq _ withLetter_eq, withAll_eq _ withChar_eq]

/-! ## Patterns from the end -/

namespace Ending

theorem fitsFrom_iff {whole : Bool} {pattern : List Letter} {word : List Char} :
    fitsFrom whole pattern word ↔
      ∃ letters rest, word = letters ++ rest ∧ acceptsAll pattern letters ∧ (whole → rest = []) := by
  induction pattern generalizing word with
  | nil =>
    rw [fitsFrom, Bool.or_eq_true, Bool.not_eq_true', List.isEmpty_iff]
    constructor
    · rintro (rfl | rfl)
      · exact ⟨[], word, rfl, rfl, fun h => absurd h Bool.false_ne_true⟩
      · exact ⟨[], [], rfl, rfl, fun _ => rfl⟩
    · rintro ⟨letters, rest, rfl, haccepts, hwhole⟩
      cases letters with
      | nil => cases whole <;> simp_all
      | cons c letters => cases haccepts
  | cons letter pattern ih =>
    cases word with
    | nil =>
      rw [fitsFrom]
      refine iff_of_false Bool.false_ne_true ?_
      rintro ⟨letters, rest, hword, haccepts, _⟩
      rw [(List.append_eq_nil_iff.1 hword.symm).1] at haccepts
      cases haccepts
    | cons c word =>
      rw [fitsFrom, Bool.and_eq_true, ih]
      constructor
      · rintro ⟨hc, letters, rest, rfl, haccepts, hwhole⟩
        exact ⟨c :: letters, rest, rfl, by rw [acceptsAll, hc, haccepts, Bool.and_self], hwhole⟩
      · rintro ⟨letters, rest, hword, haccepts, hwhole⟩
        cases letters with
        | nil => cases haccepts
        | cons d letters =>
          obtain ⟨rfl, rfl⟩ := List.cons.inj hword
          rw [acceptsAll, Bool.and_eq_true] at haccepts
          exact ⟨haccepts.1, letters, rest, rfl, haccepts.2, hwhole⟩

/-- A pattern stands at the end of a word, or is the whole word. -/
theorem fitsFrom_reverse_iff {whole : Bool} {pattern : List Letter} {word : List Char} :
    fitsFrom whole pattern.reverse word.reverse ↔
      ∃ front letters, word = front ++ letters ∧ acceptsAll pattern letters ∧ (whole → front = []) := by
  rw [fitsFrom_iff]
  constructor
  · rintro ⟨letters, rest, hword, haccepts, hwhole⟩
    refine ⟨rest.reverse, letters.reverse, ?_, ?_, fun h => by rw [hwhole h]; rfl⟩
    · rw [← List.reverse_append, ← hword, List.reverse_reverse]
    · rw [← acceptsAll_reverse, List.reverse_reverse]
      exact haccepts
  · rintro ⟨front, letters, rfl, haccepts, hwhole⟩
    exact ⟨letters.reverse, front.reverse, List.reverse_append, acceptsAll_reverse.2 haccepts,
      fun h => by rw [hwhole h]; rfl⟩

theorem first?_or {α : Type} (endings endings' : List (Ending α)) (word : List Char) :
    first? (endings ++ endings') word = (first? endings word).or (first? endings' word) :=
  List.findSome?_append

theorem first?_flatMap {α β : Type} (l : List β) (endings : β → List (Ending α)) (word : List Char) :
    first? (l.flatMap endings) word = l.findSome? fun b => first? (endings b) word := by
  induction l with
  | nil => rfl
  | cons b l ih =>
    rw [List.flatMap_cons, first?_or, List.findSome?_cons, ← ih]
    cases first? (endings b) word <;> rfl

theorem first?_map {α β : Type} (l : List β) (ending : β → Ending α) (word : List Char) :
    first? (l.map ending) word = l.findSome? fun b =>
      if fitsFrom (ending b).whole (ending b).letters word then some (ending b).value else none := by
  rw [first?, List.findSome?_map]
  rfl

end Ending

/-! ## Rules -/

namespace Rule

/-- The endings that a rule is for. A rule for beginnings is taken for one for whole words. -/
def endings (rule : Rule) : List (Ending Edit) :=
  rule.kept.flatMap fun kept => rule.dropped.map fun dropped =>
    ⟨(kept ++ dropped).reverse, rule.place ≠ .ending, ⟨dropped, rule.added⟩⟩

/-- A rule is not for the beginning of a longer word. -/
def NotBeyond (rule : Rule) (word : List Char) : Prop :=
  rule.place = .beginning → ∀ kept ∈ rule.kept, ∀ dropped ∈ rule.dropped,
    acceptsAll (kept ++ dropped) (word.take (kept ++ dropped).length) →
      word.length ≤ (kept ++ dropped).length

section Apply

variable {kept dropped : List Letter} {word : List Char}

theorem accepts_drop_iff :
    acceptsAll (kept ++ dropped) (word.drop (word.length - (kept ++ dropped).length)) ↔
      Ending.fitsFrom false (kept ++ dropped).reverse word.reverse := by
  rw [Ending.fitsFrom_reverse_iff]
  constructor
  · intro haccepts
    exact ⟨_, _, (List.take_append_drop _ word).symm, haccepts, nofun⟩
  · rintro ⟨front, letters, rfl, haccepts, _⟩
    rwa [List.length_append, length_of_acceptsAll haccepts, Nat.add_sub_cancel, List.drop_left]

theorem accepts_whole_iff : acceptsAll (kept ++ dropped) word ↔
    Ending.fitsFrom true (kept ++ dropped).reverse word.reverse := by
  rw [Ending.fitsFrom_reverse_iff]
  constructor
  · exact fun haccepts => ⟨[], word, rfl, haccepts, fun _ => rfl⟩
  · rintro ⟨front, letters, rfl, haccepts, hwhole⟩
    rwa [hwhole rfl]

theorem inflectWith?_ending (added : List Char) :
    inflectWith? .ending kept dropped added word =
      if Ending.fitsFrom false (kept ++ dropped).reverse word.reverse then
        some (Edit.apply ⟨dropped, added⟩ word)
      else none := by
  simp only [inflectWith?, ← accepts_drop_iff]
  split
  · next haccepts =>
    have hlength := length_of_acceptsAll haccepts
    rw [List.length_drop, List.length_append] at hlength
    rw [Edit.apply, List.length_append,
      show word.length - (kept.length + dropped.length) + kept.length = word.length - dropped.length by
        omega]
  · rfl

theorem inflectWith?_whole (added : List Char) :
    inflectWith? .whole kept dropped added word =
      if Ending.fitsFrom true (kept ++ dropped).reverse word.reverse then
        some (Edit.apply ⟨dropped, added⟩ word)
      else none := by
  simp only [inflectWith?, ← accepts_whole_iff]
  split
  · next haccepts =>
    rw [Edit.apply, ← length_of_acceptsAll haccepts, List.length_append, Nat.add_sub_cancel]
  · rfl

theorem inflectWith?_beginning (added : List Char)
    (hbeyond : acceptsAll (kept ++ dropped) (word.take (kept ++ dropped).length) →
      word.length ≤ (kept ++ dropped).length) :
    inflectWith? .beginning kept dropped added word = inflectWith? .whole kept dropped added word := by
  by_cases haccepts : acceptsAll (kept ++ dropped) (word.take (kept ++ dropped).length)
  · have hlength := hbeyond haccepts
    rw [List.take_of_length_le hlength] at haccepts
    simp only [inflectWith?, List.take_of_length_le hlength, haccepts, if_true,
      List.drop_of_length_le hlength, List.append_nil]
  · have hwhole : ¬ acceptsAll (kept ++ dropped) word := by
      intro hwhole
      rw [length_of_acceptsAll hwhole, List.take_length] at haccepts
      exact haccepts hwhole
    simp only [inflectWith?, if_neg haccepts, if_neg hwhole]

end Apply

/-- A rule makes of a word what the first of its endings says. -/
theorem inflect?_eq_edit {rule : Rule} {word : List Char} (hbeyond : rule.NotBeyond word) :
    rule.inflect? word = (Ending.first? rule.endings word.reverse).map (·.apply word) := by
  rw [endings, Ending.first?_flatMap]
  refine findSome?_map_of_mem fun kept hkept => ?_
  rw [Ending.first?_map]
  refine findSome?_map_of_mem fun dropped hdropped => ?_
  rw [apply_ite (Option.map _)]
  cases hplace : rule.place with
  | ending => exact inflectWith?_ending rule.added
  | whole => exact inflectWith?_whole rule.added
  | beginning =>
    rw [inflectWith?_beginning rule.added (hbeyond hplace kept hkept dropped hdropped)]
    exact inflectWith?_whole rule.added

end Rule

/-! ## Directions -/

namespace Direction

def entry (word : String) (edit : Edit) : Ending Edit :=
  ⟨(spelled word).reverse, true, edit⟩

def dictionary (d : Direction) : List (Ending Edit) :=
  uncountable.map (entry · .keep) ++ d.irregular.flatMap fun (source, target) =>
    [entry target .keep, entry source ⟨spelled source, target.toList⟩]

/-- All endings that a direction knows, in the order in which they count. -/
def endings (d : Direction) : List (Ending Edit) :=
  d.dictionary ++ d.rules.flatMap Rule.endings

section Small

variable {d : Direction} {word : List Char} (hsmall : Small word)
include hsmall

/-- A spelling in a table is the end of the word, and all of it if the ending is for whole words. -/
theorem fitsFrom_spelled_iff {whole : Bool} {name : String} :
    Ending.fitsFrom whole (spelled name).reverse word.reverse ↔
      name.toList <:+ word ∧ (whole → word = name.toList) := by
  rw [Ending.fitsFrom_reverse_iff]
  constructor
  · rintro ⟨front, letters, rfl, haccepts, hwhole⟩
    have hletters := (acceptsAll_spelled_iff fun c hc => hsmall c (List.mem_append_right _ hc)).1 haccepts
    subst hletters
    exact ⟨List.suffix_append _ _, fun h => by rw [hwhole h, List.nil_append]⟩
  · rintro ⟨⟨front, rfl⟩, hwhole⟩
    refine ⟨front, name.toList, rfl, (acceptsAll_spelled_iff ?_).2 rfl, fun h => ?_⟩
    · exact fun c hc => hsmall c (List.mem_append_right _ hc)
    · exact List.append_left_eq_self.1 (hwhole h)

theorem fitsFrom_spelled {name : String} :
    Ending.fitsFrom true (spelled name).reverse word.reverse ↔ String.ofList word = name := by
  rw [fitsFrom_spelled_iff hsmall]
  constructor
  · rintro ⟨_, hwhole⟩
    rw [hwhole rfl, String.ofList_toList]
  · rintro rfl
    rw [String.toList_ofList]
    exact ⟨List.suffix_refl _, fun _ => rfl⟩

theorem first?_entry (name : String) (edit : Edit) (endings : List (Ending Edit)) :
    Ending.first? (entry name edit :: endings) word.reverse =
      if String.ofList word = name then some edit else Ending.first? endings word.reverse := by
  rw [Ending.first?, List.findSome?_cons]
  simp only [entry, fitsFrom_spelled hsmall]
  by_cases hname : String.ofList word = name
  · rw [if_pos hname, if_pos hname]
  · rw [if_neg hname, if_neg hname]
    rfl

theorem first?_entries (names : List String) :
    Ending.first? (names.map (entry · .keep)) word.reverse =
      if names.contains (String.ofList word) then some .keep else none := by
  induction names with
  | nil => rfl
  | cons name names ih =>
    rw [List.map_cons, first?_entry hsmall, ih, List.contains_cons]
    by_cases hname : String.ofList word = name <;> simp [hname]

theorem first?_dictionary :
    Ending.first? d.dictionary word.reverse =
      if uncountable.contains (String.ofList word) then some .keep
      else d.irregular.findSome? fun (source, target) =>
        if String.ofList word = target then some .keep
        else if String.ofList word = source then some ⟨spelled source, target.toList⟩
        else none := by
  rw [dictionary, Ending.first?_or, first?_entries hsmall, Ending.first?_flatMap]
  simp only [first?_entry hsmall]
  split <;> rfl

theorem irregular?_eq_edit : d.irregular? word = (d.irregular.findSome? fun (source, target) =>
    if String.ofList word = target then some Edit.keep
    else if String.ofList word = source then some ⟨spelled source, target.toList⟩
    else none).map (·.apply word) := by
  refine findSome?_map_of_mem fun entry _ => ?_
  simp only [lower_of_small hsmall]
  split
  · rw [Option.map_some, Edit.apply_keep]
  · split
    · next hsource =>
      -- The word has no capital that its form could take over.
      have hcase : withCaseOf word entry.2.toList = entry.2.toList := by
        rw [← lowered_of_small hsmall, withCaseOf_lowered hsmall.ascii]
      have hedit : Edit.apply ⟨spelled entry.1, entry.2.toList⟩ word = entry.2.toList := by
        rw [← hsource, Edit.apply, spelled, List.length_map, String.toList_ofList, Nat.sub_self]
        rfl
      rw [hcase, Option.map_some, hedit]
    · rfl

/-- A word is inflected as the first ending says that it has. -/
theorem inflectWord_eq_edit (hne : word ≠ []) (hbeyond : ∀ rule ∈ d.rules, rule.NotBeyond word) :
    d.inflectWord word = ((Ending.first? d.endings word.reverse).getD .keep).apply word := by
  have hrules : d.rules.findSome? (·.inflect? word) =
      (Ending.first? (d.rules.flatMap Rule.endings) word.reverse).map (·.apply word) := by
    rw [Ending.first?_flatMap]
    exact findSome?_map_of_mem fun rule hrule => Rule.inflect?_eq_edit (hbeyond rule hrule)
  rw [inflectWord, lower_of_small hsmall, List.isEmpty_eq_false_iff.2 hne, irregular?_eq_edit hsmall,
    hrules, endings, Ending.first?_or, first?_dictionary hsmall, Bool.false_or]
  -- The table holds the three sources of a form in the order in which they are asked.
  split
  · exact (Edit.apply_keep word).symm
  · cases (d.irregular.findSome? _ : Option Edit) with
    | some edit => rfl
    | none =>
      cases Ending.first? (d.rules.flatMap Rule.endings) word.reverse with
      | some edit => rfl
      | none => exact (Edit.apply_keep word).symm

end Small

end Direction

end NamedQuery.Inflection
