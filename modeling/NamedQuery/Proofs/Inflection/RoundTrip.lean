import NamedQuery.Proofs.Inflection.Edits

/-! # From the singular to the plural and back

Which words in small letters are the singular of their plural (`goesBack`). The table has no rules in
it, only endings and words; that it is right for every word is checked by reading it along with the
tables of the two directions (`singular_plural_iff`). -/

namespace NamedQuery.Inflection

open Identifier (continues)

/-! ## What edits leave -/

theorem acceptsAll_append_left {pattern other : List Letter} {text : List Char}
    (h : acceptsAll (pattern ++ other) text) :
    ∃ front rest, text = front ++ rest ∧ acceptsAll pattern front := by
  induction pattern generalizing text with
  | nil => exact ⟨[], text, rfl, rfl⟩
  | cons letter pattern ih =>
    cases text with
    | nil => cases h
    | cons c text =>
      rw [List.cons_append, acceptsAll, Bool.and_eq_true] at h
      obtain ⟨front, rest, rfl, haccepts⟩ := ih h.2
      exact ⟨c :: front, rest, rfl, by rw [acceptsAll, h.1, haccepts, Bool.and_self]⟩

theorem Edit.apply_append {edit : Edit} (front : List Char) {letters : List Char}
    (h : acceptsAll edit.dropped letters) : edit.apply (front ++ letters) = front ++ edit.added := by
  rw [apply, length_of_acceptsAll h, List.length_append, Nat.add_sub_cancel, List.take_left]

/-- What the edits of a table drop is the end of the endings that they are for. -/
def DropEndings (endings : List (Ending Edit)) : Prop :=
  ∀ ending ∈ endings, ending.value.dropped.reverse <+: ending.letters

theorem Direction.dropEndings (d : Direction) : DropEndings d.endings := by
  intro ending h
  rcases List.mem_append.1 h with h | h
  · rcases List.mem_append.1 h with h | h
    · obtain ⟨name, _, rfl⟩ := List.mem_map.1 h
      exact List.nil_prefix
    · obtain ⟨⟨source, target⟩, _, h⟩ := List.mem_flatMap.1 h
      rcases h with _ | ⟨_, _ | ⟨_, h⟩⟩
      · exact List.nil_prefix
      · exact List.prefix_refl _
      · cases h
  · obtain ⟨rule, _, h⟩ := List.mem_flatMap.1 h
    obtain ⟨kept, _, h⟩ := List.mem_flatMap.1 h
    obtain ⟨dropped, _, rfl⟩ := List.mem_map.1 h
    rw [List.reverse_append]
    exact List.prefix_append _ _

namespace DropEndings

variable {endings : List (Ending Edit)} (hdrop : DropEndings endings)
include hdrop

/-- The first ending that a word has is one of the table, and the word ends in what the edit drops. -/
theorem exists_of_first? {word : List Char} {edit : Edit}
    (h : Ending.first? endings word.reverse = some edit) :
    edit ∈ endings.map (·.value) ∧
      ∃ front letters, word = front ++ letters ∧ acceptsAll edit.dropped letters := by
  obtain ⟨ending, hending, hvalue⟩ := List.exists_of_findSome?_eq_some h
  split at hvalue
  · next hfits =>
    cases hvalue
    refine ⟨List.mem_map_of_mem hending, ?_⟩
    obtain ⟨letters, rest, hword, haccepts, _⟩ := Ending.fitsFrom_iff.1 hfits
    -- The letters of an ending stand last one first, so those it drops come before the others.
    obtain ⟨more, hmore⟩ := hdrop ending hending
    rw [← hmore] at haccepts
    obtain ⟨last, before, rfl, hlast⟩ := acceptsAll_append_left haccepts
    refine ⟨(before ++ rest).reverse, last.reverse, ?_, ?_⟩
    · rw [← List.reverse_append, ← List.append_assoc, ← hword, List.reverse_reverse]
    · rw [← acceptsAll_reverse, List.reverse_reverse]
      exact hlast
  · cases hvalue

theorem length_le (word : List Char) :
    ((Ending.first? endings word.reverse).getD .keep).dropped.length ≤ word.length := by
  cases hfirst : Ending.first? endings word.reverse with
  | none => exact Nat.zero_le _
  | some edit =>
    obtain ⟨_, front, letters, rfl, haccepts⟩ := hdrop.exists_of_first? hfirst
    rw [Option.getD_some, length_of_acceptsAll haccepts, List.length_append]
    exact Nat.le_add_left _ _

end DropEndings

/-! ## Letters that are known -/

/-- The letters of a pattern that leaves no choice. -/
def exactly? : List Letter → Option (List Char)
  | [] => some []
  | .one c :: pattern => (exactly? pattern).map (c :: ·)
  | _ :: _ => none

theorem eq_of_exactly {pattern : List Letter} {spelling text : List Char}
    (h : exactly? pattern = some spelling) (hsmall : Small text) (haccepts : acceptsAll pattern text) :
    text = spelling := by
  induction pattern generalizing spelling text with
  | nil =>
    cases h
    cases text with
    | nil => rfl
    | cons c text => cases haccepts
  | cons letter pattern ih =>
    cases letter with
    | oneOf | noneOf => cases h
    | one c =>
      obtain ⟨rest, hrest, rfl⟩ := Option.map_eq_some_iff.1 h
      cases text with
      | nil => cases haccepts
      | cons d text =>
        rw [acceptsAll, Bool.and_eq_true] at haccepts
        have hd := smallLetter_of_continues (hsmall d (List.mem_cons_self ..))
        have hc : d = c := by simpa [Letter.accepts, hd] using haccepts.1
        rw [hc, ih hrest (fun e he => hsmall e (List.mem_cons_of_mem _ he)) haccepts.2]

/-- The letters that have been read, if they are all known. -/
def known? : List (Option Char) → Option (List Char)
  | [] => some []
  | some c :: read => (known? read).map (c :: ·)
  | none :: _ => none

theorem Tables.Knows.eq_of_known {read : List (Option Char)} {letters spelling : List Char}
    (h : Knows read letters) (hknown : known? read = some spelling) : letters = spelling := by
  induction h generalizing spelling with
  | nil =>
    cases hknown
    rfl
  | known _ ih =>
    obtain ⟨rest, hrest, rfl⟩ := Option.map_eq_some_iff.1 hknown
    rw [ih hrest]
  | other => cases hknown

theorem Tables.Knows.length_eq {read : List (Option Char)} {letters : List Char}
    (h : Knows read letters) : read.length = letters.length := by
  induction h with
  | nil => rfl
  | known _ ih | other _ ih => rw [List.length_cons, List.length_cons, ih]

theorem Tables.Knows.drop {read : List (Option Char)} {letters : List Char} (h : Knows read letters)
    (n : Nat) : Knows (read.drop n) (letters.drop n) := by
  induction h generalizing n with
  | nil => rw [List.drop_nil, List.drop_nil]; exact .nil
  | known h ih =>
    cases n with
    | zero => exact .known h
    | succ n => exact ih n
  | other h ih =>
    cases n with
    | zero => exact .other h
    | succ n => exact ih n

/-! ## Comparing the result -/

/-- Whether an edit makes, out of a front and added letters, the same front and wanted letters. Of the
front the letters at its end have been read. -/
def agrees? (added wanted : List Char) (read : List (Option Char)) (edit : Edit) : Option Bool :=
  let dropped := edit.dropped.length
  if dropped ≤ added.length then
    some (added.take (added.length - dropped) ++ edit.added = wanted)
  else
    let beyond := dropped - added.length
    if edit.added.length ≠ beyond + wanted.length then some false
    else if read.length < beyond then none
    else (known? (read.drop (read.length - beyond))).map fun letters =>
      decide (edit.added = letters ++ wanted)

theorem agrees?_sound {added wanted : List Char} {read : List (Option Char)} {edit : Edit}
    {answer : Bool} (h : agrees? added wanted read edit = some answer) {front letters : List Char}
    (hknows : Tables.Knows read letters)
    (hlength : edit.dropped.length ≤ (front ++ letters ++ added).length) :
    edit.apply (front ++ letters ++ added) = front ++ letters ++ wanted ↔ answer = true := by
  unfold agrees? at h
  simp only at h
  rw [Edit.apply]
  split at h
  · next hle =>
    cases h
    rw [List.length_append, Nat.add_sub_assoc hle, List.take_length_add_append, List.append_assoc,
      List.append_cancel_left_eq, decide_eq_true_eq]
  · next hgt =>
    -- All the added letters are dropped, and letters of the front with them.
    generalize hbeyond : edit.dropped.length - added.length = beyond at h
    have hread := hknows.length_eq
    rw [List.length_append] at hlength
    have hfront : (front ++ letters ++ added).take
          ((front ++ letters ++ added).length - edit.dropped.length) =
        (front ++ letters).take ((front ++ letters).length - beyond) := by
      rw [List.length_append, List.take_append_of_le_length (by omega)]
      congr 1
      omega
    have hsplit : front ++ letters ++ wanted =
        (front ++ letters).take ((front ++ letters).length - beyond) ++
          ((front ++ letters).drop ((front ++ letters).length - beyond) ++ wanted) := by
      rw [← List.append_assoc, List.take_append_drop]
    rw [hfront, hsplit, List.append_cancel_left_eq]
    split at h
    · next hne =>
      cases h
      refine iff_of_false (fun heq => hne ?_) Bool.false_ne_true
      rw [heq, List.length_append, List.length_drop]
      omega
    · split at h
      · cases h
      · next hle =>
        obtain ⟨spelling, hspelling, rfl⟩ := Option.map_eq_some_iff.1 h
        have hletters := (hknows.drop (read.length - beyond)).eq_of_known hspelling
        have hdrop : (front ++ letters).drop ((front ++ letters).length - beyond) = spelling := by
          rw [← hletters, hread, List.length_append, Nat.add_sub_assoc (by omega),
            List.drop_length_add_append]
        rw [hdrop, decide_eq_true_eq]

/-! ## One direction after another -/

/-- Checks for all words with one edit that what a second table makes of the edited word is a wanted one
just if a third table says so. The wanted word depends on the dropped and the added letters. -/
def checks (wanted : List Char → List Char → List Char) (first second : List (Ending Edit))
    (third : List (Ending Bool)) (edit : Edit) : Bool :=
  match exactly? edit.dropped with
  | none => false
  | some dropped =>
    let interest := first.map fun ending => ⟨ending.letters, ending.whole, ending.value = edit⟩
    withAll (Ending.inView withBool) (Ending.afterAll dropped.reverse interest) fun interest =>
      Tables.explore
        (fun read answers =>
          agrees? edit.added (wanted dropped edit.added) read (answers.1.getD .keep) =
            some (answers.2.getD true))
        20
        ⟨interest, Ending.afterAll edit.added.reverse second, Ending.afterAll dropped.reverse third⟩ []

/-- Checks this for all edits of the first table that know the letters they drop. -/
def checksAll (wanted : List Char → List Char → List Char) (first second : List (Ending Edit))
    (third : List (Ending Bool)) : Bool :=
  withAll (Ending.inView Edit.inView) first fun first =>
    withAll (Ending.inView Edit.inView) second fun second =>
      withAll (Ending.inView withBool) third fun third =>
        (first.map (·.value)).eraseDups.all fun edit =>
          (exactly? edit.dropped).isNone || checks wanted first second third edit

theorem checks_of_checksAll {wanted : List Char → List Char → List Char}
    {first second : List (Ending Edit)} {third : List (Ending Bool)}
    (h : checksAll wanted first second third) {edit : Edit} (hedit : edit ∈ first.map (·.value))
    (hexact : exactly? edit.dropped ≠ none) : checks wanted first second third edit := by
  rw [checksAll, withAll_eq _ (Ending.inView_eq Edit.inView_eq),
    withAll_eq _ (Ending.inView_eq Edit.inView_eq), withAll_eq _ (Ending.inView_eq withBool_eq),
    List.all_eq_true] at h
  have hcheck := h edit (List.mem_eraseDups.2 hedit)
  rwa [Option.isNone_eq_false_iff.2 (Option.isSome_iff_ne_none.2 hexact), Bool.false_or] at hcheck

/-- What a second table makes of a word that has been edited is the wanted word just if a third table
says so, if this has been checked for the edit. -/
theorem apply_apply_eq_iff {first second : List (Ending Edit)} {third : List (Ending Bool)}
    {wanted : List Char → List Char → List Char} {edit : Edit}
    (hcheck : checks wanted first second third edit) (hfirst : DropEndings first)
    (hsecond : DropEndings second) {word : List Char} (hsmall : Small word)
    (hedit : Ending.first? first word.reverse = some edit) :
    ∃ front dropped, word = front ++ dropped ∧ edit.apply word = front ++ edit.added ∧
      (((Ending.first? second (edit.apply word).reverse).getD .keep).apply (edit.apply word) =
          front ++ wanted dropped edit.added ↔
        (Ending.first? third word.reverse).getD true = true) := by
  obtain ⟨_, front, dropped, rfl, haccepts⟩ := hfirst.exists_of_first? hedit
  have hfront : Small front := fun c hc => hsmall c (List.mem_append_left _ hc)
  unfold checks at hcheck
  cases hexactly : exactly? edit.dropped with
  | none =>
    rw [hexactly] at hcheck
    cases hcheck
  | some spelling =>
    -- The edit knows the letters it drops, so what is left to read are those of the front.
    obtain rfl := eq_of_exactly hexactly (fun c hc => hsmall c (List.mem_append_right _ hc)) haccepts
    simp only [hexactly, withAll_eq _ (Ending.inView_eq withBool_eq)] at hcheck
    refine ⟨front, dropped, rfl, Edit.apply_append front haccepts, ?_⟩
    rw [Edit.apply_append front haccepts]
    -- Of interest are the words that have this edit, and this is one of them.
    have hinterests : Ending.first? (first.map fun ending =>
        ⟨ending.letters, ending.whole, decide (ending.value = edit)⟩) (front ++ dropped).reverse =
          some true := by
      rw [Ending.first?_map_value (fun value => decide (value = edit)), hedit, Option.map_some,
        decide_eq_true rfl]
    rw [List.reverse_append, Ending.first?_append] at hinterests
    obtain ⟨before, letters, read, hletters, hknows, hagrees⟩ :=
      Tables.explore_sound hcheck (fun c hc => hfront c (List.mem_reverse.1 hc)) .nil hinterests
    rw [List.reverse_reverse, List.append_nil] at hletters
    subst hletters
    have hlength := hsecond.length_le (before ++ letters ++ edit.added)
    simp only [Tables.answers, ← Ending.first?_append, ← List.reverse_append, decide_eq_true_eq]
      at hagrees
    exact agrees?_sound hagrees hknows hlength

/-! ## Back from the plural -/

/-- Words, or endings of words, with what they say. -/
def listed (whole : Bool) (names : List String) (value : Bool) : List (Ending Bool) :=
  names.map fun name => ⟨(spelled name).reverse, whole, value⟩

/-- Words and endings that decide whether a word is the singular of its plural, the first one that a
word has. Words that have none of them are. -/
def roundTrips : List (Ending Bool) :=
  listed true ["ie", "ve", "axis", "jeans", "move", "news", "police", "series", "species", "zombie"]
    true ++
  listed true ["ax", "axe", "axi", "children", "jean", "men", "mofe", "movy", "new", "oxen", "people",
    "polouse", "serie", "sery", "sexe", "specie", "specy", "women", "zomby"] false ++
  listed false ["quie", "databasis"] false ++
  listed false ["aie", "eie", "iie", "oie", "uie", "yie", "movie", "shoe", "database", "fve", "hive",
    "tive", "ss", "alias", "bus", "octopus", "status", "virus", "analysis", "basis", "crisis",
    "diagnosis", "prognosis", "synopsis", "testis", "thesis"] true ++
  listed false ["s", "ia", "ta", "ie", "oe", "ve", "xe", "che", "she", "sse", "lfe", "rfe", "hife",
    "tife", "lice", "mice", "indice", "matrice", "vertice", "indix", "matrex", "vertix", "quizze",
    "bu", "octopu", "statu", "viru", "aliase", "buse", "statuse", "octopi", "viri", "movy",
    "analyse", "base", "crise", "diagnose", "prognose", "synopse", "teste", "these",
    "analysi", "basi", "crisi", "diagnosi", "prognosi", "synopsi", "testi", "thesi"] false

/-- Whether a word is the singular of its plural. -/
def goesBack (word : List Char) : Bool :=
  (Ending.first? roundTrips word.reverse).getD true

theorem checksAll_roundTrips : checksAll (fun dropped _ => dropped) Direction.toPlural.endings
    Direction.toSingular.endings roundTrips := by
  decide +kernel

namespace Direction

theorem exists_first?_toPlural (word : List Char) :
    ∃ edit, Ending.first? toPlural.endings word.reverse = some edit := by
  -- The last rule is for every word.
  have hlast : ∃ ending ∈ toPlural.endings, ending.letters = [] ∧ ending.whole = false := by
    decide
  obtain ⟨ending, hending, hletters, hwhole⟩ := hlast
  refine Option.isSome_iff_exists.1 (List.findSome?_isSome_iff.2 ⟨ending, hending, ?_⟩)
  rw [hletters, hwhole]
  rfl

section Plural

variable {word : List Char} (hsmall : Small word) (hne : word ≠ [])
include hsmall hne

theorem plural_eq_edit {edit : Edit} (hedit : Ending.first? toPlural.endings word.reverse = some edit) :
    toPlural.inflectWord word = edit.apply word := by
  have hplaces : ∀ rule ∈ toPlural.rules, rule.place ≠ .beginning := by decide
  rw [inflectWord_eq_edit hsmall hne fun rule hrule hplace => absurd hplace (hplaces rule hrule), hedit]
  rfl

theorem exists_plural_eq : ∃ front dropped edit, word = front ++ dropped ∧
    edit ∈ toPlural.endings.map (·.value) ∧ acceptsAll edit.dropped dropped ∧
      toPlural.inflectWord word = front ++ edit.added := by
  obtain ⟨edit, hedit⟩ := exists_first?_toPlural word
  have hplural := plural_eq_edit hsmall hne hedit
  obtain ⟨hmem, front, dropped, rfl, haccepts⟩ := toPlural.dropEndings.exists_of_first? hedit
  exact ⟨front, dropped, edit, rfl, hmem, haccepts, hplural.trans (Edit.apply_append front haccepts)⟩

theorem small_plural : Small (toPlural.inflectWord word) := by
  have hadded : ∀ edit ∈ toPlural.endings.map (·.value), Small edit.added := by
    decide
  obtain ⟨front, dropped, edit, rfl, hmem, _, hplural⟩ := exists_plural_eq hsmall hne
  intro c hc
  rw [hplural] at hc
  rcases List.mem_append.1 hc with hc | hc
  · exact hsmall c (List.mem_append_left _ hc)
  · exact hadded edit hmem c hc

theorem plural_ne_nil : toPlural.inflectWord word ≠ [] := by
  have hadded : ∀ edit ∈ toPlural.endings.map (·.value), edit.added = [] → edit.dropped = [] := by
    decide
  obtain ⟨front, dropped, edit, rfl, hmem, haccepts, hplural⟩ := exists_plural_eq hsmall hne
  rw [hplural]
  intro hnil
  obtain ⟨rfl, hnone⟩ := List.append_eq_nil_iff.1 hnil
  rw [hadded edit hmem hnone] at haccepts
  cases dropped with
  | nil => exact hne rfl
  | cons c dropped => cases haccepts

/-- The plural of a word begins with `oxen` only if the word does, or if it is all of the plural. -/
theorem oxen_of_prefix_plural (h : "oxen".toList <+: toPlural.inflectWord word) :
    "oxen".toList <+: word ∨ toPlural.inflectWord word = "oxen".toList := by
  have hadded : ∀ edit ∈ toPlural.endings.map (·.value), ∀ n < 4,
      "oxen".toList.drop n <+: edit.added → edit.added = "oxen".toList.drop n := by
    decide
  obtain ⟨front, dropped, edit, rfl, hmem, _, hplural⟩ := exists_plural_eq hsmall hne
  rw [hplural] at h ⊢
  -- Either all of `oxen` is in the front, or the added letters are what is missing there.
  rcases List.prefix_or_prefix_of_prefix h (List.prefix_append front edit.added) with
    hfront | ⟨rest, hrest⟩
  · exact .inl (hfront.trans (List.prefix_append _ _))
  · by_cases hlength : front.length < 4
    · have hdrop : "oxen".toList.drop front.length = rest := by rw [← hrest, List.drop_left]
      rw [← hrest, List.prefix_append_right_inj, ← hdrop] at h
      rw [hadded edit hmem front.length hlength h, hdrop, hrest]
      exact .inr rfl
    · have hwhole : front = "oxen".toList := by
        refine List.IsPrefix.eq_of_length_le ⟨rest, hrest⟩ ?_
        exact Nat.le_of_not_lt hlength
      exact .inl ⟨dropped, by rw [hwhole]⟩

end Plural

/-- If `oxen` does not begin a longer word, no rule for the singular goes beyond it. -/
theorem notBeyond_toSingular {word : List Char} (hsmall : Small word)
    (hoxen : "oxen".toList <+: word → word = "oxen".toList) :
    ∀ rule ∈ toSingular.rules, rule.NotBeyond word := by
  have hbeginnings : ∀ rule ∈ toSingular.rules, rule.place = .beginning →
      rule.kept = [spelled "ox"] ∧ rule.dropped = [spelled "en"] := by decide
  intro rule hrule hplace kept hkept dropped hdropped haccepts
  rw [(hbeginnings rule hrule hplace).1, List.mem_singleton] at hkept
  rw [(hbeginnings rule hrule hplace).2, List.mem_singleton] at hdropped
  have hspelled : kept ++ dropped = spelled "oxen" := by rw [hkept, hdropped]; rfl
  rw [hspelled] at haccepts ⊢
  have htake := (acceptsAll_spelled_iff fun c hc => hsmall c (List.mem_of_mem_take hc)).1 haccepts
  rw [hoxen (htake ▸ List.take_prefix _ _)]
  exact Nat.le_refl _

end Direction

/-- A word is the singular of its plural just if the table says so. -/
theorem singular_plural_iff {word : List Char} (hsmall : Small word) (hne : word ≠ [])
    (hoxen : "oxen".toList <+: word → word = "oxen".toList) :
    Direction.toSingular.inflectWord (Direction.toPlural.inflectWord word) = word ↔
      goesBack word = true := by
  obtain ⟨edit, hedit⟩ := Direction.exists_first?_toPlural word
  have hexact : ∀ edit ∈ Direction.toPlural.endings.map (·.value), exactly? edit.dropped ≠ none := by
    decide
  obtain ⟨hmem, _⟩ := Direction.toPlural.dropEndings.exists_of_first? hedit
  obtain ⟨front, dropped, hword, _, hiff⟩ :=
    apply_apply_eq_iff (checks_of_checksAll checksAll_roundTrips hmem (hexact edit hmem))
      (Direction.dropEndings _) (Direction.dropEndings _) hsmall hedit
  rw [← hword, ← Direction.plural_eq_edit hsmall hne hedit] at hiff
  have hplural := Direction.small_plural hsmall hne
  -- The one rule for beginnings does not go beyond this plural.
  have hoxenPlural : Direction.toPlural.inflectWord "oxen".toList = "oxen".toList := by decide
  have hbeyond := Direction.notBeyond_toSingular hplural fun h =>
    (Direction.oxen_of_prefix_plural hsmall hne h).elim (fun h => by rw [hoxen h, hoxenPlural]) id
  rw [Direction.inflectWord_eq_edit hplural (Direction.plural_ne_nil hsmall hne) hbeyond]
  exact hiff

example : goesBack "movie".toList ∧ ¬ goesBack "cookie".toList := by decide

end NamedQuery.Inflection
