import NamedQuery.Proofs.Inflection.Endings

/-! # Regular nouns

Words with one of fourteen letters at their end take an `s` in the plural and lose it again in the
singular, but for a few that the dictionary or another rule claims (`RegularEnding`). With the nouns of
the dictionary that have such letters at their ends, all of them have a singular and a plural that
inflection takes to each other (`NumberPair.of_regular`), in either case of the first letter
(`NumberPair.capitalized`) and as the last words of names. -/

namespace NamedQuery.Inflection

open Identifier (continues isWord)

/-! ## Singular and plural -/

/-- Several small letters. -/
structure Letters (word : List Char) : Prop where
  several : 2 ≤ word.length
  small : ∀ c ∈ word, c.isLower

instance (word : List Char) : Decidable (Letters word) :=
  decidable_of_iff (2 ≤ word.length ∧ word.all Char.isLower)
    ⟨fun h => ⟨h.1, List.all_eq_true.1 h.2⟩, fun h => ⟨h.several, List.all_eq_true.2 h.small⟩⟩

/-- Two words that are singular and plural of each other. -/
structure NumberPair (one many : List Char) : Prop where
  plural_one : Direction.toPlural.inflectWord one = many
  plural_many : Direction.toPlural.inflectWord many = many
  singular_one : Direction.toSingular.inflectWord one = one
  singular_many : Direction.toSingular.inflectWord many = one
  ne : many ≠ one

instance (one many : List Char) : Decidable (NumberPair one many) :=
  decidable_of_iff
    ((Direction.toPlural.inflectWord one = many ∧ Direction.toPlural.inflectWord many = many) ∧
      (Direction.toSingular.inflectWord one = one ∧ Direction.toSingular.inflectWord many = one) ∧
      many ≠ one)
    ⟨fun ⟨⟨hone, hmany⟩, ⟨hone', hmany'⟩, hne⟩ => ⟨hone, hmany, hone', hmany', hne⟩,
      fun h => ⟨⟨h.plural_one, h.plural_many⟩, ⟨h.singular_one, h.singular_many⟩, h.ne⟩⟩

/-- Letters at the end of a word that no rule but the last one is for. -/
def plainFinals : List Char := "bcdgjklnpqrtvw".toList

/-- Words with a plain letter at their ends that are uncountable, or whose plurals are, or that are
plurals themselves. -/
def exceptions : List String :=
  ["equipment", "information", "sheep", "jean", "new", "men", "women", "children"]

/-- The ending of a word whose plural and singular are made by the plain rules or by the dictionary. -/
structure RegularEnding (word : List Char) : Prop where
  final : ∃ c, word.getLast? = some c ∧ c ∈ plainFinals
  notOxen : ¬ "oxen".toList <+: word
  notException : ∀ exception ∈ exceptions, word ≠ exception.toList

/-- Nouns of the dictionary with regular endings. -/
def irregularPairs : List (String × String) :=
  [("person", "people"), ("man", "men"), ("woman", "women"), ("child", "children")]

/-! ## Words that are not in the dictionary -/

def named : List String := uncountable ++ irregular.map Prod.fst ++ irregular.map Prod.snd

theorem Letters.continues {word : List Char} (h : Letters word) : Small word :=
  fun c hc => continues_of_isLower (h.small c hc)

namespace Direction

variable {d : Direction} {word : List Char}

theorem inflectWord_of_notNamed
    (hnames : ∀ entry ∈ d.irregular, entry.1 ∈ named ∧ entry.2 ∈ named) (hsmall : Small word)
    (hnamed : String.ofList word ∉ named) (hne : word ≠ []) :
    d.inflectWord word = (d.rules.findSome? (·.inflect? word)).getD word := by
  have huncountable : uncountable.contains (String.ofList word) = false := by
    rw [← Bool.not_eq_true, List.contains_iff_mem]
    exact fun hmem => hnamed (by simp [named, hmem])
  have hirregular : d.irregular? word = none := by
    refine List.findSome?_eq_none_iff.2 fun entry hentry => ?_
    obtain ⟨hsource, htarget⟩ := hnames entry hentry
    have hne : ∀ name ∈ named, String.ofList word ≠ name := fun name hname heq =>
      hnamed (heq ▸ hname)
    simp only [lower_of_small hsmall]
    rw [if_neg (hne _ htarget), if_neg (hne _ hsource)]
  rw [inflectWord, lower_of_small hsmall, huncountable, hirregular, List.isEmpty_eq_false_iff.2 hne]
  rfl

end Direction

/-! ## Regular words -/

/-- A rule that is silent on the ending of a word, or is only for words with `oxen`, is not for a word
with another beginning. -/
theorem Rule.inflect?_of_regular {rule : Rule} {front ending : List Char}
    (hrule : rule.Silent ending ∨ rule.OnlyFor "oxen") (hsmall : Small (front ++ ending))
    (hoxen : ¬ "oxen".toList <+: front ++ ending) : rule.inflect? (front ++ ending) = none := by
  rcases hrule with hsilent | honly
  · exact Rule.inflect?_of_silent hsilent front
  · exact Rule.inflect?_of_onlyFor honly hsmall hoxen

section Rules

variable {front : List Char} {c : Char} (hc : c ∈ plainFinals) (hsmall : Small (front ++ [c]))
  (hoxen : ¬ "oxen".toList <+: front ++ [c])
include hc hsmall hoxen

theorem findSome?_pluralRules_plain :
    pluralRules.findSome? (·.inflect? (front ++ [c])) = some (front ++ [c] ++ ['s']) := by
  have hrules : ∀ ending ∈ plainFinals.map ([·]), ∀ rule ∈ pluralRules.dropLast,
      rule.Silent ending ∨ rule.OnlyFor "oxen" := by decide
  have hlast := Rule.inflect?_ending ['s'] (front ++ [c]) (show acceptsAll [] [] from rfl)
  rw [List.append_nil] at hlast
  exact findSome?_of_first
    (fun rule hrule =>
      Rule.inflect?_of_regular (hrules _ (List.mem_map_of_mem hc) rule hrule) hsmall hoxen) hlast

theorem findSome?_singularRules_plain :
    singularRules.findSome? (·.inflect? (front ++ [c])) = none := by
  have hrules : ∀ ending ∈ plainFinals.map ([·]), ∀ rule ∈ singularRules,
      rule.Silent ending ∨ rule.OnlyFor "oxen" := by decide
  exact List.findSome?_eq_none_iff.2 fun rule hrule =>
    Rule.inflect?_of_regular (hrules _ (List.mem_map_of_mem hc) rule hrule) hsmall hoxen

omit hc in
theorem small_and_notOxen_plural :
    Small (front ++ [c, 's']) ∧ ¬ "oxen".toList <+: front ++ [c, 's'] := by
  have happend : front ++ [c, 's'] = front ++ [c] ++ ['s'] := by simp
  rw [happend]
  refine ⟨hsmall.append (by decide), fun hprefix => ?_⟩
  rcases List.prefix_concat_iff.1 hprefix with heq | hprefix
  · have hlast := congrArg List.getLast? heq
    rw [List.getLast?_concat] at hlast
    exact absurd hlast (by decide)
  · exact hoxen hprefix

theorem findSome?_pluralRules_plural :
    pluralRules.findSome? (·.inflect? (front ++ [c, 's'])) = some (front ++ [c, 's']) := by
  have hrules : ∀ ending ∈ plainFinals.map ([·, 's']), ∀ rule ∈ pluralRules.take 20,
      rule.Silent ending ∨ rule.OnlyFor "oxen" := by decide
  obtain ⟨hsmall, hoxen⟩ := small_and_notOxen_plural hsmall hoxen
  have hkeeps := Rule.inflect?_ending ['s'] (front ++ [c])
    (show acceptsAll (spelled "s") ['s'] by decide)
  rw [List.append_assoc] at hkeeps
  exact findSome?_of_first
    (fun rule hrule =>
      Rule.inflect?_of_regular (hrules _ (List.mem_map_of_mem hc) rule hrule) hsmall hoxen) hkeeps

theorem findSome?_singularRules_plural :
    singularRules.findSome? (·.inflect? (front ++ [c, 's'])) = some (front ++ [c]) := by
  have hrules : ∀ ending ∈ plainFinals.map ([·, 's']), ∀ rule ∈ singularRules.dropLast,
      rule.Silent ending ∨ rule.OnlyFor "oxen" := by decide
  obtain ⟨hsmall, hoxen⟩ := small_and_notOxen_plural hsmall hoxen
  have hdrops := Rule.inflect?_ending [] (front ++ [c])
    (show acceptsAll (spelled "s") ['s'] by decide)
  rw [List.append_assoc, List.append_nil] at hdrops
  exact findSome?_of_first
    (fun rule hrule =>
      Rule.inflect?_of_regular (hrules _ (List.mem_map_of_mem hc) rule hrule) hsmall hoxen) hdrops

end Rules

/-! ## Pairs -/

namespace NumberPair

theorem of_plain {front : List Char} {c : Char} (hc : c ∈ plainFinals) (hsmall : Small (front ++ [c]))
    (hoxen : ¬ "oxen".toList <+: front ++ [c]) (hone : String.ofList (front ++ [c]) ∉ named)
    (hmany : String.ofList (front ++ [c, 's']) ∉ named) :
    NumberPair (front ++ [c]) (front ++ [c, 's']) := by
  -- Neither form is a word of the dictionary, so rules make both of them from each other.
  have hplural : ∀ entry ∈ Direction.toPlural.irregular, entry.1 ∈ named ∧ entry.2 ∈ named := by
    decide
  have hsingular : ∀ entry ∈ Direction.toSingular.irregular, entry.1 ∈ named ∧ entry.2 ∈ named := by
    decide
  have hsmall' := (small_and_notOxen_plural hsmall hoxen).1
  have hrules : Direction.toPlural.rules = pluralRules ∧ Direction.toSingular.rules = singularRules :=
    ⟨rfl, rfl⟩
  constructor
  · rw [Direction.inflectWord_of_notNamed hplural hsmall hone (by simp), hrules.1,
      findSome?_pluralRules_plain hc hsmall hoxen, List.append_assoc]
    rfl
  · rw [Direction.inflectWord_of_notNamed hplural hsmall' hmany (by simp), hrules.1,
      findSome?_pluralRules_plural hc hsmall hoxen]
    rfl
  · rw [Direction.inflectWord_of_notNamed hsingular hsmall hone (by simp), hrules.2,
      findSome?_singularRules_plain hc hsmall hoxen]
    rfl
  · rw [Direction.inflectWord_of_notNamed hsingular hsmall' hmany (by simp), hrules.2,
      findSome?_singularRules_plural hc hsmall hoxen]
    rfl
  · intro heq
    simpa using congrArg List.length heq

/-- A regular ending that is not in the dictionary stays out of it with an `s`. -/
theorem notNamed_of_regular {front : List Char} {c : Char} (h : RegularEnding (front ++ [c]))
    (hc : c ∈ plainFinals)
    (hpairs : ∀ pair ∈ irregularPairs, front ++ [c] ≠ pair.1.toList) :
    String.ofList (front ++ [c]) ∉ named ∧ String.ofList (front ++ [c, 's']) ∉ named := by
  -- A name that ends in a plain letter, with an `s` or without, is an exception or one of a pair.
  have hnames : ∀ name ∈ named, name.toList.getLast? ∉ plainFinals.map some ∨
      name ∈ exceptions ∨ name ∈ irregularPairs.map Prod.fst := by decide
  have hplurals : ∀ name ∈ named, name.toList.dropLast.getLast? ∉ plainFinals.map some ∨
      name.toList.getLast? ≠ some 's' ∨ String.ofList name.toList.dropLast ∈ exceptions := by
    decide
  constructor
  · intro hmem
    rcases hnames _ hmem with hlast | hexception | hpair
    · exact hlast (List.mem_map.2 ⟨c, hc, by simp⟩)
    · exact h.notException _ hexception (by simp)
    · obtain ⟨pair, hpair, heq⟩ := List.mem_map.1 hpair
      exact hpairs pair hpair (by simp [heq])
  · have hdrop : (front ++ [c, 's']).dropLast = front ++ [c] := by
      rw [List.dropLast_append_of_ne_nil (by simp)]
      rfl
    intro hmem
    rcases hplurals _ hmem with hlast | hlast | hexception
    · exact hlast (List.mem_map.2 ⟨c, hc, by simp [hdrop]⟩)
    · exact hlast (by simp)
    · exact h.notException _ hexception (by simp [hdrop])

/-- A regular word has a plural, and is its singular. -/
theorem of_regular {word : List Char} (hletters : Letters word) (h : RegularEnding word) :
    ∃ many, Letters many ∧ NumberPair word many := by
  by_cases hpairs : ∃ pair ∈ irregularPairs, word = pair.1.toList
  · have hdictionary : ∀ pair ∈ irregularPairs,
        Letters pair.2.toList ∧ NumberPair pair.1.toList pair.2.toList := by decide
    obtain ⟨pair, hpair, rfl⟩ := hpairs
    exact ⟨_, hdictionary pair hpair⟩
  · obtain ⟨c, hlast, hc⟩ := h.final
    obtain ⟨front, rfl⟩ := List.getLast?_eq_some_iff.1 hlast
    obtain ⟨hone, hmany⟩ := notNamed_of_regular h hc fun pair hpair heq => hpairs ⟨pair, hpair, heq⟩
    refine ⟨front ++ [c, 's'], ⟨by simp, fun d hd => ?_⟩,
      of_plain hc hletters.continues h.notOxen hone hmany⟩
    have hd : d ∈ front ++ [c] ∨ d = 's' := by simpa [or_assoc] using hd
    rcases hd with hd | rfl
    · exact hletters.small d hd
    · decide

end NumberPair

/-! ## Capitals -/

theorem toUpper_of_isLower {c : Char} (hc : c.isLower) :
    c.toUpper.isUpper ∧ c.toUpper.toLower = c := by
  have hall : ∀ n < 0x80, (Char.ofNat n).isLower →
      (Char.ofNat n).toUpper.isUpper ∧ (Char.ofNat n).toUpper.toLower = Char.ofNat n := by decide
  exact forall_ascii (p := fun c => c.isLower → c.toUpper.isUpper ∧ c.toUpper.toLower = c) hall
    (ascii_of_continues (continues_of_isLower hc)) hc

theorem capitalize_of_ascii {c : Char} (hc : c.toNat < 0x80) (rest : List Char) :
    capitalize (c :: rest) = c.toUpper :: rest := by
  rw [capitalize, Text.uppercase_of_ascii hc]
  rfl

/-- A word is its own form in small letters with a capital. -/
theorem capitalize_lowered {word : List Char} (h : isWord word) : capitalize (lowered word) = word := by
  cases word with
  | nil => cases h
  | cons c rest =>
    have hc := (isWord_cons_iff.1 h).1
    have hall : ∀ n < 0x80, (Char.ofNat n).isUpper →
        (Char.ofNat n).toLower.toUpper = Char.ofNat n := by decide
    rw [lowered_of_isWord h,
      capitalize_of_ascii (ascii_of_continues (continues_toLower_of_isUpper hc)),
      forall_ascii (p := fun c => c.isUpper → c.toLower.toUpper = c) hall (ascii_of_isUpper hc) hc]

theorem Small.lowered_capitalize {word : List Char} (h : Small word) :
    lowered (capitalize word) = word := by
  cases word with
  | nil => rfl
  | cons c rest =>
    have hc := h c (List.mem_cons_self ..)
    have hrest : Small rest := fun d hd => h d (List.mem_cons_of_mem _ hd)
    have hall : ∀ n < 0x80, Identifier.continues (Char.ofNat n) →
        (Char.ofNat n).toUpper.toLower = Char.ofNat n := by decide
    rw [capitalize_of_ascii (ascii_of_continues hc), lowered, List.map_cons,
      forall_ascii (p := fun c => Identifier.continues c → c.toUpper.toLower = c) hall
        (ascii_of_continues hc) hc]
    exact congrArg _ (lowered_of_small hrest)

namespace Letters

variable {word : List Char} (h : Letters word)
include h

theorem camelWord_capitalize : CamelWord (capitalize word) := by
  match word, h with
  | [], h => exact absurd h.several (by simp)
  | [c], h => exact absurd h.several (by simp)
  | c :: d :: rest, h =>
    have hc := h.small c (by simp)
    rw [capitalize_of_ascii (ascii_of_continues (continues_of_isLower hc))]
    refine .intro (toUpper_of_isLower hc).1 (h.small d (by simp)) fun e he => ?_
    exact continues_of_isLower (h.small e (by simp [he]))

theorem lowered_capitalize : lowered (capitalize word) = word :=
  h.continues.lowered_capitalize

/-- A word is inflected as its form in small letters, if it stays a word. -/
theorem inflectWord_capitalize {d : Direction} (hsmall : d.InSmallLetters)
    (hword : isWord (d.inflectWord (capitalize word))) :
    d.inflectWord (capitalize word) = capitalize (d.inflectWord word) := by
  have hlowered := Direction.inflectWord_lowered hsmall (ascii_of_isWord h.camelWord_capitalize.isWord)
  rw [h.lowered_capitalize] at hlowered
  rw [hlowered, capitalize_lowered hword]

end Letters

/-- The plural of a word of several letters is a word, unless the word is `sis`, which is replaced as
a whole. -/
theorem Direction.isWord_plural {word : List Char} (hword : isWord word) (hlong : 2 ≤ word.length)
    (hsis : lowered word ≠ "sis".toList) : isWord (toPlural.inflectWord word) := by
  have hkeeps : ∀ rule ∈ toPlural.rules, rule.KeepsFirst 2 ∨ rule.KeepsFirst 4 ∧ rule.place = .ending ∧
      ∀ kept ∈ rule.kept, ∀ dropped ∈ rule.dropped, kept ++ dropped = spelled "sis" := by decide
  refine isWord_inflectWord toPlural_inSmallLetters hword fun rule hrule made hmade => ?_
  have hadded := toPlural_inSmallLetters.rules rule hrule
  rcases hkeeps rule hrule with hkeeps | ⟨hkeeps, hplace, hpattern⟩
  · exact Rule.isWord_of_inflect? (hkeeps.mono hlong) hadded hword hmade
  · by_cases hlength : 4 ≤ word.length
    · exact Rule.isWord_of_inflect? (hkeeps.mono hlength) hadded hword hmade
    · -- Of the words that short only one has the ending.
      obtain ⟨kept, hkept, hmade⟩ := List.exists_of_findSome?_eq_some hmade
      obtain ⟨dropped, hdropped, hmade⟩ := List.exists_of_findSome?_eq_some hmade
      have hstart : word.length - (spelled "sis").length = 0 :=
        Nat.sub_eq_zero_of_le (Nat.lt_succ_iff.1 (Nat.not_le.1 hlength))
      simp only [hplace, Rule.inflectWith?, hpattern kept hkept dropped hdropped, hstart,
        List.drop_zero] at hmade
      split at hmade
      · next haccepts =>
        rw [← acceptsAll_lowered] at haccepts
        exact absurd ((acceptsAll_spelled_iff (small_lowered hword)).1 haccepts) hsis
      · cases hmade

/-- The pair of two words with capitals. -/
theorem NumberPair.capitalized {one many : List Char} (hone : Letters one) (hmany : Letters many)
    (h : NumberPair one many) : NumberPair (capitalize one) (capitalize many) := by
  -- The one word whose plural does not keep its capital is `sis`, which is in no pair.
  have hsis : Direction.toPlural.inflectWord "sis".toList = "ses".toList ∧
      Direction.toSingular.inflectWord "ses".toList = "se".toList := by decide
  have honeSis : one ≠ "sis".toList := by
    rintro rfl
    have hmany := h.singular_many
    rw [← h.plural_one, hsis.1, hsis.2] at hmany
    exact absurd hmany (by decide)
  have hmanySis : many ≠ "sis".toList := by
    rintro rfl
    have hmany := h.plural_many
    rw [hsis.1] at hmany
    exact absurd hmany (by decide)
  have hplural : ∀ {word}, Letters word → word ≠ "sis".toList →
      Direction.toPlural.inflectWord (capitalize word) =
        capitalize (Direction.toPlural.inflectWord word) := by
    intro word hword hne
    refine hword.inflectWord_capitalize Direction.toPlural_inSmallLetters ?_
    have hcamel := hword.camelWord_capitalize
    exact Direction.isWord_plural hcamel.isWord hcamel.two_le_length (by rwa [hword.lowered_capitalize])
  have hsingular : ∀ {word}, Letters word →
      Direction.toSingular.inflectWord (capitalize word) =
        capitalize (Direction.toSingular.inflectWord word) := by
    intro word hword
    refine hword.inflectWord_capitalize Direction.toSingular_inSmallLetters ?_
    have hcamel := hword.camelWord_capitalize
    exact Direction.isWord_singular hcamel.isWord hcamel.two_le_length
  constructor
  · rw [hplural hone honeSis, h.plural_one]
  · rw [hplural hmany hmanySis, h.plural_many]
  · rw [hsingular hone, h.singular_one]
  · rw [hsingular hmany, h.singular_many]
  · intro heq
    have hlowered := congrArg lowered heq
    rw [hone.lowered_capitalize, hmany.lowered_capitalize] at hlowered
    exact h.ne hlowered

end NamedQuery.Inflection
