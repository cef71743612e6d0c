import NamedQuery.Proofs.Inflection.RoundTrip

/-! # From the plural to the singular and back

Which words are the plural of their singular (`comesBack`). As for the way from the singular there is a
table of endings, checked by reading it along with the tables of the two directions
(`checksAll_comingBack`). Two things are not covered by it: the one pattern that leaves a choice of
letters, which is for two words only, and longer words that begin with `oxen`, of which the rule for
this beginning takes two letters that no rule for the plural gives back. -/

namespace NamedQuery.Inflection

open Identifier (isWord)

/-! ## The table -/

/-- Words and endings that decide whether a word is the plural of its singular, the first one that a
word has. Of the words that end in `s` most are, and of all others only those listed. -/
def comingBack : List (Ending Bool) :=
  listed true ["children", "equipment", "fes", "fish", "information", "men", "money", "oxen", "people",
    "rice", "sheep", "testes", "women", "ys"] true ++
  listed true ["axis", "childrens", "childs", "equipments", "fishes", "informations", "mans", "mens",
    "moneys", "oxens", "oxes", "peoples", "persons", "rices", "sheeps", "testis", "womans", "womens"]
    false ++
  listed false ["quys"] false ++
  listed false ["lice", "mice", "octopi", "viri", "ia", "ta", "buffaloes", "shoes", "tomatoes", "ffes",
    "ays", "eys", "iys", "oys", "uys", "yys"] true ++
  listed false ["alias", "bus", "octopus", "status", "virus", "analysis", "basis", "crisis", "diagnosis",
    "prognosis", "synopsis", "thesis", "testes", "indexes", "matrexes", "vertexes", "indixes",
    "matrixes", "vertixes", "oes", "fes", "lices", "mices", "louses", "mouses", "octopis", "viris",
    "ias", "tas", "iums", "tums", "buffalos", "tomatos", "quizs", "lfs", "rfs", "chs", "shs", "ss",
    "xs", "ys"] false ++
  listed false ["s"] true ++
  listed false [""] false

/-- Endings of words that come back although they begin with `oxen`. -/
def longPlurals : List (Ending Bool) :=
  listed false ["databases", "quizzes", "matrices", "vertices", "indices"] true

/-- Whether a word is the plural of its singular. -/
def comesBack (word : List Char) : Bool :=
  if "oxen".toList <+: word ∧ word ≠ "oxen".toList then
    (Ending.first? longPlurals word.reverse).getD false
  else (Ending.first? comingBack word.reverse).getD true

/-- The endings of a direction, with the one of all other words, which stay as they are. -/
def Direction.allEndings (d : Direction) : List (Ending Edit) :=
  d.endings ++ [⟨[], false, .keep⟩]

theorem Direction.first?_allEndings (d : Direction) (word : List Char) :
    Ending.first? d.allEndings word = some ((Ending.first? d.endings word).getD .keep) := by
  rw [allEndings, Ending.first?_or]
  cases Ending.first? d.endings word <;> rfl

theorem Direction.dropEndings_allEndings (d : Direction) : DropEndings d.allEndings := by
  intro ending hending
  rcases List.mem_append.1 hending with hending | hending
  · exact d.dropEndings ending hending
  · rw [List.mem_singleton.1 hending]
    exact List.nil_prefix

theorem checksAll_comingBack : checksAll (fun dropped _ => dropped) Direction.toSingular.allEndings
    Direction.toPlural.endings comingBack := by
  decide +kernel

/-! ## Words as the tables see them -/

namespace Direction

theorem plural_eq_apply {word : List Char} (hsmall : Small word) (hne : word ≠ []) :
    toPlural.inflectWord word =
      ((Ending.first? toPlural.endings word.reverse).getD .keep).apply word := by
  obtain ⟨edit, hedit⟩ := exists_first?_toPlural word
  rw [plural_eq_edit hsmall hne hedit, hedit]
  rfl

/-- Only `axis` and `axes` have an ending that leaves a choice of letters. -/
theorem axis_or_axes {word : List Char} (hsmall : Small word) {edit : Edit}
    (hedit : Ending.first? toSingular.allEndings word.reverse = some edit)
    (hinexact : exactly? edit.dropped = none) : word = "axis".toList ∨ word = "axes".toList := by
  have hone : ∀ ending ∈ toSingular.allEndings, exactly? ending.value.dropped = none →
      ending.whole = true ∧
        ending.letters = [Letter.one 'a', .one 'x', .oneOf ['i', 'e'], .one 's'].reverse := by
    decide
  obtain ⟨ending, hending, hvalue⟩ := List.exists_of_findSome?_eq_some hedit
  split at hvalue
  · next hfits =>
    cases hvalue
    obtain ⟨hwhole, hletters⟩ := hone ending hending hinexact
    rw [hletters, hwhole, Ending.fitsFrom_reverse_iff] at hfits
    obtain ⟨front, letters, rfl, haccepts, hfront⟩ := hfits
    rw [hfront rfl, List.nil_append] at hsmall ⊢
    -- Each of the two choices spells a word.
    have haxis : spelled "axis" = [Letter.one 'a', .one 'x', .one 'i', .one 's'] := rfl
    have haxes : spelled "axes" = [Letter.one 'a', .one 'x', .one 'e', .one 's'] := rfl
    have hspelled : acceptsAll (spelled "axis") letters ∨ acceptsAll (spelled "axes") letters := by
      rw [haxis, haxes]
      rcases letters with _ | ⟨a, _ | ⟨x, _ | ⟨v, letters⟩⟩⟩
      · cases haccepts
      · simp [acceptsAll] at haccepts
      · simp [acceptsAll] at haccepts
      · simp [acceptsAll, Letter.accepts] at haccepts ⊢
        obtain ⟨ha, hx, hi | he, hs⟩ := haccepts
        · exact .inl ⟨ha, hx, hi, hs⟩
        · exact .inr ⟨ha, hx, he, hs⟩
    exact hspelled.imp (acceptsAll_spelled_iff hsmall).1 (acceptsAll_spelled_iff hsmall).1
  · cases hvalue

end Direction

/-- The singular of a word is a word in small letters. -/
theorem small_singular {word : List Char} (hword : isWord word) (hlong : 2 ≤ word.length) :
    Small (Direction.toSingular.inflectWord (lowered word)) ∧
      Direction.toSingular.inflectWord (lowered word) ≠ [] := by
  have hsingular := Direction.isWord_singular hword hlong
  rw [Direction.inflectWord_lowered Direction.toSingular_inSmallLetters (ascii_of_isWord hword)]
  refine ⟨small_lowered hsingular, fun hnil => ?_⟩
  rw [List.map_eq_nil_iff.1 hnil] at hsingular
  cases hsingular

/-- A word that does not begin with `oxen` comes back just if the table says so. -/
theorem plural_singular_iff_table {word : List Char} (hsmall : Small word) (hne : word ≠ [])
    (hsingular : Small (Direction.toSingular.inflectWord word))
    (hsingularNe : Direction.toSingular.inflectWord word ≠ [])
    (hoxen : "oxen".toList <+: word → word = "oxen".toList) :
    Direction.toPlural.inflectWord (Direction.toSingular.inflectWord word) = word ↔
      (Ending.first? comingBack word.reverse).getD true = true := by
  have hedit := Direction.toSingular.first?_allEndings word.reverse
  -- Only `axis` and `axes` lose letters that the ending does not spell out.
  by_cases hinexact : exactly? ((Ending.first? Direction.toSingular.endings word.reverse).getD
      .keep).dropped = none
  · rcases Direction.axis_or_axes hsmall hedit hinexact with rfl | rfl
    · decide
    · decide
  · obtain ⟨hmem, _⟩ := Direction.toSingular.dropEndings_allEndings.exists_of_first? hedit
    obtain ⟨front, dropped, hword, _, hiff⟩ :=
      apply_apply_eq_iff (checks_of_checksAll checksAll_comingBack hmem hinexact)
        Direction.toSingular.dropEndings_allEndings Direction.toPlural.dropEndings hsmall hedit
    rw [← hword, ← Direction.inflectWord_eq_edit hsmall hne
      (Direction.notBeyond_toSingular hsmall hoxen)] at hiff
    rw [Direction.plural_eq_apply hsingular hsingularNe]
    exact hiff

/-! ## Longer words that begin with oxen -/

/-- The endings of the rules for the singular that are tried before the one for `oxen`. -/
def endingsBeforeOxen : List (Ending Edit) :=
  (Direction.toSingular.rules.take 4).flatMap Rule.endings

theorem first?_longPlurals (word : List Char) :
    (Ending.first? longPlurals word).getD false = (Ending.first? endingsBeforeOxen word).isSome := by
  have hsame : endingsBeforeOxen.map (fun ending => ⟨ending.letters, ending.whole, true⟩) =
      longPlurals := by rfl
  rw [← hsame, Ending.first?_map_value fun _ => true]
  cases Ending.first? endingsBeforeOxen word <;> rfl

/-- No word of the dictionary begins with `oxen`, so that rules decide on words that do. -/
theorem singular_of_oxen {rest : List Char} (hsmall : Small ("oxen".toList ++ rest)) :
    Direction.toSingular.inflectWord ("oxen".toList ++ rest) =
      ((Ending.first? endingsBeforeOxen ("oxen".toList ++ rest).reverse).map
        (·.apply ("oxen".toList ++ rest))).getD ("ox".toList ++ rest) := by
  generalize hword : "oxen".toList ++ rest = word at *
  have hprefix : "oxen".toList <+: word := ⟨rest, hword⟩
  have hnot : ∀ name : String, ¬ "oxen".toList <+: name.toList → String.ofList word ≠ name := by
    rintro name h rfl
    have hlist : (String.ofList word).toList = word := String.toList_ofList
    rw [hlist] at h
    exact h hprefix
  -- The dictionary has no word that begins with `oxen`, so it is left to the rules.
  have huncountable : uncountable.contains (String.ofList word) = false := by
    have hall : ∀ name ∈ uncountable, ¬ "oxen".toList <+: name.toList := by decide
    refine Bool.eq_false_iff.2 fun h => ?_
    exact hnot _ (hall _ (List.contains_iff_mem.1 h)) rfl
  have hirregular : Direction.toSingular.irregular? word = none := by
    have hall : ∀ entry ∈ Direction.toSingular.irregular,
        ¬ "oxen".toList <+: entry.1.toList ∧ ¬ "oxen".toList <+: entry.2.toList := by decide
    refine List.findSome?_eq_none_iff.2 fun entry hentry => ?_
    simp only [lower_of_small hsmall]
    rw [if_neg (hnot _ (hall entry hentry).2), if_neg (hnot _ (hall entry hentry).1)]
  have hbefore : (Direction.toSingular.rules.take 4).findSome? (·.inflect? word) =
      (Ending.first? endingsBeforeOxen word.reverse).map (·.apply word) := by
    have hplaces : ∀ rule ∈ Direction.toSingular.rules.take 4, rule.place ≠ .beginning := by decide
    rw [endingsBeforeOxen, Ending.first?_flatMap]
    exact findSome?_map_of_mem fun rule hrule =>
      Rule.inflect?_eq_edit fun hplace => absurd hplace (hplaces rule hrule)
  have hoxen : Rule.inflect? ⟨.beginning, anyOf ["ox"], anyOf ["en"], []⟩ word =
      some ("ox".toList ++ rest) := by
    rw [← hword]
    rfl
  have hrules : Direction.toSingular.rules = Direction.toSingular.rules.take 4 ++
      ⟨.beginning, anyOf ["ox"], anyOf ["en"], []⟩ :: Direction.toSingular.rules.drop 5 := by rfl
  have hne : word.isEmpty = false := by rw [← hword]; rfl
  rw [Direction.inflectWord, lower_of_small hsmall, hne, huncountable, hirregular, hrules,
    List.findSome?_append, hbefore, List.findSome?_cons, hoxen]
  cases Ending.first? endingsBeforeOxen word.reverse <;> rfl

/-- No plural has the letter `n` more often than its singular, but for `oxen` and `children`. -/
theorem count_n_plural_le {word : List Char} (hsmall : Small word) (hne : word ≠ [])
    (hox : word ≠ "ox".toList) (hchild : word ≠ "child".toList) :
    (Direction.toPlural.inflectWord word).count 'n' ≤ word.count 'n' := by
  have hadded : ∀ ending ∈ Direction.toPlural.endings,
      ((exactly? ending.value.dropped).any fun dropped =>
        decide (ending.value.added.count 'n' ≤ dropped.count 'n')) ∨
      ending.whole ∧ (ending.letters = (spelled "ox").reverse ∨
        ending.letters = (spelled "child").reverse) := by
    decide
  obtain ⟨edit, hedit⟩ := Direction.exists_first?_toPlural word
  obtain ⟨_, front, letters, hword, haccepts⟩ := Direction.toPlural.dropEndings.exists_of_first? hedit
  obtain ⟨ending, hending, hvalue⟩ := List.exists_of_findSome?_eq_some hedit
  split at hvalue
  · next hfits =>
    cases hvalue
    -- An edit that adds more letters `n` than it drops is one of `oxen` and `children`.
    rcases hadded ending hending with hcount | ⟨hwhole, hletters⟩
    · cases hexactly : exactly? ending.value.dropped with
      | none =>
        rw [hexactly] at hcount
        cases hcount
      | some dropped =>
        rw [hexactly, Option.any_some, decide_eq_true_eq] at hcount
        have hsmallLetters : Small letters := fun c hc => hsmall c (hword ▸ List.mem_append_right _ hc)
        rw [Direction.plural_eq_edit hsmall hne hedit, hword, Edit.apply_append front haccepts,
          List.count_append, List.count_append, eq_of_exactly hexactly hsmallLetters haccepts]
        omega
    · rw [hwhole] at hfits
      rcases hletters with hletters | hletters
      · rw [hletters, Direction.fitsFrom_spelled hsmall] at hfits
        exact absurd (by rw [← hfits, String.toList_ofList]) hox
      · rw [hletters, Direction.fitsFrom_spelled hsmall] at hfits
        exact absurd (by rw [← hfits, String.toList_ofList]) hchild
  · cases hvalue

theorem checksAll_beforeOxen : checksAll (fun dropped _ => dropped) endingsBeforeOxen
    Direction.toPlural.endings [] := by
  decide +kernel

/-- A longer word that begins with `oxen` comes back just if an earlier rule is for it. -/
theorem plural_singular_oxen_iff {rest : List Char} (hsmall : Small ("oxen".toList ++ rest))
    (hrest : rest ≠ [])
    (hsingular : Small (Direction.toSingular.inflectWord ("oxen".toList ++ rest)))
    (hsingularNe : Direction.toSingular.inflectWord ("oxen".toList ++ rest) ≠ []) :
    Direction.toPlural.inflectWord (Direction.toSingular.inflectWord ("oxen".toList ++ rest)) =
        "oxen".toList ++ rest ↔
      (Ending.first? longPlurals ("oxen".toList ++ rest).reverse).getD false = true := by
  rw [singular_of_oxen hsmall] at hsingular hsingularNe ⊢
  rw [first?_longPlurals]
  cases hfirst : Ending.first? endingsBeforeOxen ("oxen".toList ++ rest).reverse with
  | some edit =>
    have hdrop : DropEndings endingsBeforeOxen := by
      unfold DropEndings
      decide
    have hexact : ∀ edit ∈ endingsBeforeOxen.map (·.value), exactly? edit.dropped ≠ none := by
      decide
    obtain ⟨hmem, _⟩ := hdrop.exists_of_first? hfirst
    obtain ⟨front, dropped, hword, _, hiff⟩ :=
      apply_apply_eq_iff (checks_of_checksAll checksAll_beforeOxen hmem (hexact edit hmem)) hdrop
        Direction.toPlural.dropEndings hsmall hfirst
    rw [hfirst, Option.map_some, Option.getD_some] at hsingular hsingularNe
    rw [Option.map_some, Option.getD_some, Direction.plural_eq_apply hsingular hsingularNe, hword]
    rw [hword] at hiff
    exact iff_of_true (hiff.2 rfl) rfl
  | none =>
    -- The two letters that the rule for `oxen` takes do not come back, as one of them is an `n`.
    rw [hfirst, Option.map_none, Option.getD_none] at hsingular hsingularNe
    rw [Option.map_none, Option.getD_none]
    refine iff_of_false (fun hback => ?_) Bool.false_ne_true
    have hox : "ox".toList ++ rest ≠ "ox".toList := fun h => hrest (List.append_right_eq_self.1 h)
    have hchild : "ox".toList ++ rest ≠ "child".toList := nofun
    have hcount := count_n_plural_le hsingular hsingularNe hox hchild
    rw [hback, List.count_append, List.count_append] at hcount
    have hoxen : "oxen".toList.count 'n' = 1 := rfl
    have hnone : "ox".toList.count 'n' = 0 := rfl
    omega

/-- A word is the plural of its singular just if the table says so. -/
theorem plural_singular_iff {word : List Char} (hword : isWord word) (hlong : 2 ≤ word.length) :
    Direction.toPlural.inflectWord (Direction.toSingular.inflectWord (lowered word)) = lowered word ↔
      comesBack (lowered word) = true := by
  have hsmall := small_lowered hword
  obtain ⟨hsingular, hsingularNe⟩ := small_singular hword hlong
  have hne : lowered word ≠ [] := by
    intro hnil
    rw [List.map_eq_nil_iff.1 hnil] at hword
    cases hword
  -- A longer word that begins with `oxen` is not decided by how it ends.
  unfold comesBack
  split
  · next hoxen =>
    obtain ⟨⟨rest, hrest⟩, hother⟩ := hoxen
    rw [← hrest] at hsmall hother hsingular hsingularNe ⊢
    exact plural_singular_oxen_iff hsmall (fun hnil => hother (by rw [hnil]; rfl)) hsingular
      hsingularNe
  · next hoxen =>
    refine plural_singular_iff_table hsmall hne hsingular hsingularNe fun hbare => ?_
    exact Classical.not_not.1 fun hother => hoxen ⟨hbare, hother⟩

example : comesBack "hippopotamus".toList ∧ ¬ comesBack "heroes".toList := by decide

end NamedQuery.Inflection
