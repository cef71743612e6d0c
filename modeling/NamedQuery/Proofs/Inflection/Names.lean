import NamedQuery.Proofs.Inflection.Regular

/-! # Regular names

A name in snake_case whose last word is one of a pair goes into its plural and back with that word, and
so does the name in CamelCase. This holds for every regular name (`Regular.namePair`). -/

namespace NamedQuery.Inflection

open Identifier (isWord)

def snakeName (words : List (List Char)) : String := String.ofList (snake words)

def camelName (words : List (List Char)) : String := String.ofList (words.map capitalize).flatten

theorem camelize_snakeName {words : List (List Char)} (h : ∀ word ∈ words, Letters word) :
    camelize (snakeName words) = camelName words := by
  rw [snakeName, camelize_snake fun word hword => (h word hword).continues, List.flatMap_def]
  rfl

/-- Two names that are singular and plural of each other. -/
structure NamePair (one many : String) : Prop where
  plural_one : pluralize one = many
  plural_many : pluralize many = many
  singular_one : singularize one = one
  singular_many : singularize many = one
  ne : many ≠ one

theorem NamePair.isPlural_many {one many : String} (h : NamePair one many) : isPlural many := by
  rw [isPlural, h.plural_many, beq_self_eq_true]

theorem NamePair.not_isPlural_one {one many : String} (h : NamePair one many) :
    isPlural one = false := by
  rw [isPlural, h.plural_one, beq_eq_false_iff_ne]
  exact h.ne

/-! ## The last word of a name -/

section Pair

variable {front : List (List Char)} (hfront : ∀ word ∈ front, Letters word) {one many : List Char}

theorem inflect_snakeName (d : Direction) {last : List Char} (hlast : Letters last) :
    String.ofList (d.inflect (snakeName (front ++ [last])).toList) =
      snakeName (front ++ [d.inflectWord last]) := by
  rw [snakeName, String.toList_ofList, d.inflect_snake front hlast.continues]
  rfl

theorem snakeName_inj {last last' : List Char}
    (h : snakeName (front ++ [last]) = snakeName (front ++ [last'])) : last = last' := by
  have hchars := String.ofList_injective h
  rw [snake_concat, snake_concat] at hchars
  exact List.append_cancel_left hchars

theorem NumberPair.snakeName (hone : Letters one) (hmany : Letters many) (h : NumberPair one many) :
    NamePair (snakeName (front ++ [one])) (snakeName (front ++ [many])) where
  plural_one := by rw [pluralize, inflect_snakeName _ hone, h.plural_one]
  plural_many := by rw [pluralize, inflect_snakeName _ hmany, h.plural_many]
  singular_one := by rw [singularize, inflect_snakeName _ hone, h.singular_one]
  singular_many := by rw [singularize, inflect_snakeName _ hmany, h.singular_many]
  ne := fun heq => h.ne (snakeName_inj heq)

include hfront

theorem camelWords_capitalize : ∀ word ∈ front.map capitalize, CamelWord word := by
  intro word hword
  obtain ⟨source, hsource, rfl⟩ := List.mem_map.1 hword
  exact (hfront source hsource).camelWord_capitalize

theorem inflect_camelName (d : Direction) {last other : List Char} (hlast : Letters last)
    (h : d.inflectWord (capitalize last) = capitalize other) :
    String.ofList (d.inflect (camelName (front ++ [last])).toList) = camelName (front ++ [other]) := by
  rw [camelName, String.toList_ofList, List.map_append, List.map_singleton,
    d.inflect_camel (camelWords_capitalize hfront) hlast.camelWord_capitalize.isWord, h, camelName,
    List.map_append, List.map_singleton]

theorem underscore_camelName {last : List Char} (hlast : Letters last) :
    underscore (camelName (front ++ [last])) = snakeName (front ++ [last]) := by
  have hlowered : ((front ++ [last]).map capitalize).map lowered = front ++ [last] := by
    rw [List.map_map]
    have hsame : ∀ word ∈ front ++ [last], (lowered ∘ capitalize) word = id word := by
      intro word hword
      rcases List.mem_append.1 hword with hword | hword
      · exact (hfront word hword).lowered_capitalize
      · rw [List.mem_singleton.1 hword]
        exact hlast.lowered_capitalize
    rw [List.map_congr_left hsame, List.map_id]
  rw [List.map_append, List.map_singleton] at hlowered
  rw [camelName, List.map_append, List.map_singleton,
    underscore_camel (camelWords_capitalize hfront) hlast.camelWord_capitalize.isWord, hlowered]
  rfl

theorem NumberPair.camelName (hone : Letters one) (hmany : Letters many) (h : NumberPair one many) :
    NamePair (camelName (front ++ [one])) (camelName (front ++ [many])) where
  plural_one := inflect_camelName hfront _ hone (h.capitalized hone hmany).plural_one
  plural_many := inflect_camelName hfront _ hmany (h.capitalized hone hmany).plural_many
  singular_one := inflect_camelName hfront _ hone (h.capitalized hone hmany).singular_one
  singular_many := inflect_camelName hfront _ hmany (h.capitalized hone hmany).singular_many
  ne := by
    intro heq
    have hunderscore := congrArg underscore heq
    rw [underscore_camelName hfront hone, underscore_camelName hfront hmany] at hunderscore
    exact h.ne (snakeName_inj hunderscore)

end Pair

/-! ## Regular names -/

/-- Words that make up a regular name. None of them begins a verb token in CamelCase. -/
structure Regular (words : List String) : Prop where
  nonempty : words ≠ []
  letters : ∀ word ∈ words, Letters word.toList
  noVerb : ∀ verb ∈ ["by", "from", "joined"], verb ∉ words
  ending : ∀ last, words.getLast? = some last → RegularEnding last.toList

theorem intercalate_eq_snakeName (words : List String) :
    "_".intercalate words = snakeName (words.map String.toList) := by
  rw [← String.toList_inj, String.toList_intercalate]
  exact String.toList_ofList.symm

/-- A regular name has a plural, which differs from it in the last word. -/
theorem Regular.exists_plural {words : List String} (h : Regular words) :
    ∃ front one many, (∀ word ∈ front, Letters word) ∧ Letters one ∧ Letters many ∧
      words.map String.toList = front ++ [one] ∧ NumberPair one many := by
  rcases words.eq_nil_or_concat with rfl | ⟨front, last, rfl⟩
  · exact absurd rfl h.nonempty
  · have hone := h.letters last (by simp)
    obtain ⟨many, hmany, hpair⟩ := NumberPair.of_regular hone (h.ending last (by simp))
    refine ⟨front.map String.toList, _, many, fun word hword => ?_, hone, hmany, by simp, hpair⟩
    obtain ⟨source, hsource, rfl⟩ := List.mem_map.1 hword
    exact h.letters source (by simp [hsource])

/-- The singular of a regular name in snake_case is the name itself, also from its plural. -/
theorem Regular.namePair {words : List String} (h : Regular words) :
    NamePair ("_".intercalate words) (pluralize ("_".intercalate words)) := by
  obtain ⟨front, one, many, -, hone, hmany, hwords, hpair⟩ := h.exists_plural
  rw [intercalate_eq_snakeName, hwords]
  have hnames : NamePair (snakeName (front ++ [one])) (snakeName (front ++ [many])) :=
    hpair.snakeName hone hmany
  rwa [hnames.plural_one]

end NamedQuery.Inflection
