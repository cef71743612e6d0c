import NamedQuery.Proofs.Inflection.PluralRoundTrip

/-! # Plurals of plurals

A name counts as plural if its plural is the name itself. Most plurals are plural, but not all of them:
the last rule adds an `s`, and the word that this makes may be one that an earlier rule is for, as
`buses` are the plural of `bus`, and this is the plural of `bu`. It happens to words with few endings
and to two whole words (`Drifts`), and these are all (`isPlural_pluralize_iff`). That the list of them is
right for every word is checked by reading it along with the rules, as for the ways between singular and
plural. -/

namespace NamedQuery.Inflection

/-! ## Words that drift -/

/-- Endings of the words whose plural is not plural. -/
def driftingEndings : List String := ["si", "bu", "statu", "octopu", "viru"]

/-- Other words whose plural is not plural. -/
def driftingWords : List String := ["axi", "testi"]

/-- A word has a plural that is not plural. -/
def Drifts (word : List Char) : Prop :=
  (∃ ending ∈ driftingEndings, ending.toList <:+ word) ∨ ∃ name ∈ driftingWords, word = name.toList

instance (word : List Char) : Decidable (Drifts word) :=
  inferInstanceAs (Decidable ((∃ ending ∈ driftingEndings, ending.toList <:+ word) ∨
    ∃ name ∈ driftingWords, word = name.toList))

/-- The words that drift as a table. Words that have none of its endings do not. -/
def drifting : List (Ending Bool) :=
  listed true driftingWords false ++ listed false driftingEndings false

/-- The second plural has the letters that the first one has added, unless the table says otherwise. -/
theorem checksAll_drifting : checksAll (fun _ added => added) Direction.toPlural.endings
    Direction.toPlural.endings drifting := by
  decide +kernel

section Small

variable {word : List Char} (hsmall : Small word)
include hsmall

theorem mem_listed_fits_iff {whole : Bool} {names : List String} {value : Bool} :
    (∃ ending ∈ listed whole names value, Ending.fitsFrom ending.whole ending.letters word.reverse) ↔
      ∃ name ∈ names, name.toList <:+ word ∧ (whole → word = name.toList) := by
  constructor
  · rintro ⟨ending, hending, hfits⟩
    obtain ⟨name, hname, rfl⟩ := List.mem_map.1 hending
    exact ⟨name, hname, (Direction.fitsFrom_spelled_iff hsmall).1 hfits⟩
  · rintro ⟨name, hname, hend⟩
    exact ⟨_, List.mem_map_of_mem hname, (Direction.fitsFrom_spelled_iff hsmall).2 hend⟩

theorem drifts_iff_fits : Drifts word ↔
    ∃ ending ∈ drifting, Ending.fitsFrom ending.whole ending.letters word.reverse := by
  simp only [drifting, List.mem_append, or_and_right, exists_or, mem_listed_fits_iff hsmall]
  rw [or_comm, Drifts]
  refine or_congr (exists_congr fun name => and_congr_right fun _ => ?_)
    (exists_congr fun name => and_congr_right fun _ => ?_)
  · exact ⟨fun h => ⟨h, fun hwhole => absurd hwhole Bool.false_ne_true⟩, fun h => h.1⟩
  · exact ⟨fun h => ⟨h ▸ List.suffix_refl _, fun _ => h⟩, fun h => h.2 trivial⟩

/-- The table says of the words that drift that their plural is another one the second time. -/
theorem first?_drifting : (Ending.first? drifting word.reverse).getD true = true ↔ ¬ Drifts word := by
  have hvalues : ∀ ending ∈ drifting, ending.value = false := by decide
  rw [drifts_iff_fits hsmall]
  cases hfirst : Ending.first? drifting word.reverse with
  | none =>
    refine iff_of_true rfl ?_
    rintro ⟨ending, hending, hfits⟩
    have hnone := List.findSome?_eq_none_iff.1 hfirst ending hending
    rw [if_pos hfits] at hnone
    cases hnone
  | some value =>
    obtain ⟨ending, hending, hvalue⟩ := List.exists_of_findSome?_eq_some hfirst
    split at hvalue
    · next hfits =>
      cases hvalue
      rw [Option.getD_some, hvalues ending hending]
      exact iff_of_false Bool.false_ne_true fun hnot => hnot ⟨ending, hending, hfits⟩
    · cases hvalue

/-- The plural of a word is its own plural just if the word does not drift. -/
theorem plural_plural_iff (hne : word ≠ []) :
    Direction.toPlural.inflectWord (Direction.toPlural.inflectWord word) =
        Direction.toPlural.inflectWord word ↔ ¬ Drifts word := by
  obtain ⟨edit, hedit⟩ := Direction.exists_first?_toPlural word
  -- What an ending drops is spelled out, so one table decides for all words.
  have hexact : ∀ edit ∈ Direction.toPlural.endings.map (·.value), exactly? edit.dropped ≠ none := by
    decide
  obtain ⟨hmem, _⟩ := Direction.toPlural.dropEndings.exists_of_first? hedit
  obtain ⟨front, dropped, _, hplural, hiff⟩ :=
    apply_apply_eq_iff (checks_of_checksAll checksAll_drifting hmem (hexact edit hmem))
      (Direction.dropEndings _) (Direction.dropEndings _) hsmall hedit
  rw [← hplural, ← Direction.plural_eq_edit hsmall hne hedit] at hiff
  rw [← first?_drifting hsmall, ← hiff,
    Direction.plural_eq_apply (Direction.small_plural hsmall hne) (Direction.plural_ne_nil hsmall hne)]

end Small

/-! ## Names -/

/-- A word that stands alone, or behind an underscore, is the last word of its name. -/
theorem splitLast_behind {front word : List Char} (hfront : front = [] ∨ front.getLast? = some '_')
    (hsmall : Small word) : splitLast (front ++ word) = (front, word) := by
  rcases hfront with rfl | hlast
  · exact splitLast_small hsmall
  · obtain ⟨before, rfl⟩ := List.getLast?_eq_some_iff.1 hlast
    rw [List.append_assoc]
    exact splitLast_underscore before hsmall

theorem Direction.inflect_behind (d : Direction) {front word : List Char}
    (hfront : front = [] ∨ front.getLast? = some '_') (hsmall : Small word) :
    d.inflect (front ++ word) = front ++ d.inflectWord word := by
  rw [inflect, splitLast_behind hfront hsmall]

/-- The plural of a name is plural, so that a second plural is the first one again, just if the last word
of the name neither has one of the endings `si`, `bu`, `statu`, `octopu` and `viru` nor is `axi` or
`testi`. The word stands alone or behind anything that ends in an underscore. -/
theorem isPlural_pluralize_iff {front word : String}
    (hfront : front = "" ∨ front.toList.getLast? = some '_') (hword : word ≠ "")
    (hsmall : Small word.toList) :
    let plural := pluralize (front ++ word)
    (isPlural plural = true ↔ pluralize plural = plural) ∧
      (isPlural plural = true ↔
        (∀ ending ∈ ["si", "bu", "statu", "octopu", "viru"], ¬ ending.toList <:+ word.toList) ∧
          word ≠ "axi" ∧ word ≠ "testi") := by
  intro plural
  have hne : word.toList ≠ [] := fun h => hword (String.toList_eq_nil_iff.1 h)
  have hfront : front.toList = [] ∨ front.toList.getLast? = some '_' :=
    hfront.imp_left fun h => by rw [h]; rfl
  -- Both times only the word behind the last underscore is inflected.
  have hplural : plural.toList = front.toList ++ Direction.toPlural.inflectWord word.toList := by
    rw [show plural = pluralize (front ++ word) from rfl, pluralize, String.toList_append,
      Direction.inflect_behind _ hfront hsmall, String.toList_ofList]
  have htwice : (pluralize plural).toList =
      front.toList ++ Direction.toPlural.inflectWord (Direction.toPlural.inflectWord word.toList) := by
    rw [pluralize, hplural, Direction.inflect_behind _ hfront (Direction.small_plural hsmall hne),
      String.toList_ofList]
  have hisPlural : isPlural plural = true ↔ pluralize plural = plural := beq_iff_eq
  refine ⟨hisPlural, ?_⟩
  calc isPlural plural = true
    _ ↔ (pluralize plural).toList = plural.toList := by rw [hisPlural, String.toList_inj]
    _ ↔ ¬ Drifts word.toList := by
      rw [htwice, hplural, List.append_cancel_left_eq, plural_plural_iff hsmall hne]
    _ ↔ _ := by simp [Drifts, driftingEndings, driftingWords, String.toList_inj]

/-- The plural of `city_bu` has a plural of its own, and this one is plural. -/
theorem cityBus_not_plural :
    pluralize "city_bu" = "city_bus" ∧ isPlural "city_bus" = false ∧
      pluralize "city_bus" = "city_buses" ∧ isPlural "city_buses" = true := by
  have hbus : pluralize ("city_" ++ "bu") = "city_bus" := by rfl
  have hbuses : pluralize ("city_" ++ "bus") = "city_buses" := by rfl
  have hfront : "city_" = "" ∨ "city_".toList.getLast? = some '_' := .inr (by rfl)
  have hbuSmall : Small "bu".toList := by decide
  have hbusSmall : Small "bus".toList := by decide
  obtain ⟨_, hdrifts⟩ := isPlural_pluralize_iff hfront (by decide) hbuSmall
  obtain ⟨_, hstays⟩ := isPlural_pluralize_iff hfront (by decide) hbusSmall
  rw [hbus] at hdrifts
  rw [hbuses] at hstays
  refine ⟨hbus, Bool.eq_false_iff.2 fun h => ?_, hbuses, hstays.2 (by decide)⟩
  exact absurd (hdrifts.1 h) (by decide)

end NamedQuery.Inflection
