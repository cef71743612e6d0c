import NamedQuery.Engine.Basic
import NamedQuery.Proofs.Text.Trim

/-! # The grammar of identifiers

`Grammar t` relates a trimmed text to what it is read as, by the words that it consists of and the
first verb token among them. It says nothing about how words and tokens are looked for; reading
follows it in both directions (`read_follows_grammar`).

The main step is `splitAtVerb?_eq_some_iff`: the split of a sequence of words stands at the first
position at which a verb token begins. -/

namespace NamedQuery.Identifier

/-! ## Words and tokens -/

/-- A text that consists of words, of which there is at least one. -/
structure Spells (words : List String) (text : String) : Prop where
  nonempty : words ≠ []
  isWord : ∀ word ∈ words, isWord word.toList
  text_eq : text = join words

/-- The words that stand for a verb. -/
inductive VerbToken : Verb → List String → Prop where
  | byField : VerbToken .byField ["By"]
  | fromAnchor : VerbToken .fromAnchor ["From"]
  | joinedWith : VerbToken .joinedWith ["Joined", "With"]

/-- A verb token begins after a number of words. -/
def VerbAt (words : List String) (position : Nat) : Prop :=
  ∃ verb token after, VerbToken verb token ∧ words.drop position = token ++ after

/-- The key that a text stands for: none if the text is empty. -/
def keyOf (text : String) : Option String :=
  if text = "" then none else some (Inflection.underscore text)

/-- Whether words ask for all records: `All`, then a plural. -/
def AsksForAll (words : List String) : Prop :=
  ∃ rest, words = "All" :: rest ∧ rest ≠ [] ∧ Inflection.isPlural (join rest)

/-- What a trimmed text is read as. -/
inductive Grammar (text : String) : Reading → Prop where
  /-- A text that does not consist of words. -/
  | noWords : (¬ ∃ words, Spells words text) → Grammar text .notQuery
  /-- A text with several words `By`, wherever they stand. -/
  | severalBy {words : List String} :
      Spells words text → 2 ≤ words.count "By" → Grammar text (.severalBy text)
  /-- `All` and a plural, with no verb token in it. -/
  | all {rest : List String} :
      Spells ("All" :: rest) text → ("All" :: rest).count "By" ≤ 1 →
      rest ≠ [] → Inflection.isPlural (join rest) →
      (∀ position, 1 ≤ position → ¬ VerbAt ("All" :: rest) position) →
      Grammar text (.query ⟨text, join rest, .all, none⟩)
  /-- An entity, the first verb token after its first word, and a key. -/
  | verb {verb : Verb} {before token after : List String} :
      Spells (before ++ token ++ after) text → (before ++ token ++ after).count "By" ≤ 1 →
      before ≠ [] → VerbToken verb token →
      (∀ position, 1 ≤ position → position < before.length →
        ¬ VerbAt (before ++ token ++ after) position) →
      Grammar text (.query ⟨text, join before, verb, keyOf (join after)⟩)
  /-- Words without a verb token that do not ask for all records. -/
  | noVerb {words : List String} :
      Spells words text → words.count "By" ≤ 1 → ¬ AsksForAll words →
      (∀ position, 1 ≤ position → ¬ VerbAt words position) → Grammar text .notQuery

/-! ## Joined words -/

theorem toList_join (words : List String) : (join words).toList = words.flatMap String.toList := by
  rw [join, String.toList_ofList]

/-- Words are not empty, so no words at all spell the empty text. -/
theorem join_eq_empty_iff {words : List String} (h : ∀ word ∈ words, isWord word.toList) :
    join words = "" ↔ words = [] := by
  constructor
  · intro hempty
    cases words with
    | nil => rfl
    | cons word rest =>
      have hnil : word.toList ++ rest.flatMap String.toList = [] := by
        rw [← List.flatMap_cons, ← toList_join, hempty]
        rfl
      have hword := h word (List.mem_cons_self ..)
      rw [(List.append_eq_nil_iff.1 hnil).1] at hword
      simp [isWord] at hword
  · rintro rfl
    rfl

theorem keyOf_join {words : List String} (h : ∀ word ∈ words, isWord word.toList) :
    keyOf (join words) = if words.isEmpty then none else some (Inflection.underscore (join words)) := by
  simp only [keyOf, join_eq_empty_iff h, List.isEmpty_iff]

/-! ## Words of a text -/

theorem map_ofList_map_toList (words : List String) :
    (words.map String.toList).map String.ofList = words := by
  rw [List.map_map]
  exact List.map_id'' (fun word => String.ofList_toList) words

theorem map_toList_map_ofList (words : List (List Char)) :
    (words.map String.ofList).map String.toList = words := by
  rw [List.map_map]
  exact List.map_id'' (fun word => String.toList_ofList) words

theorem words?_eq_some_iff_spells {words : List String} {text : String} :
    words? text.toList = some (words.map String.toList) ↔ Spells words text := by
  rw [words?_eq_some_iff, ← List.flatMap_def, ← toList_join, String.toList_inj]
  constructor
  · rintro ⟨hne, hwords, htext⟩
    refine ⟨fun h => hne (by simp [h]), fun word hword => ?_, htext⟩
    exact hwords word.toList (List.mem_map_of_mem hword)
  · rintro ⟨hne, hwords, htext⟩
    refine ⟨fun h => hne (List.map_eq_nil_iff.1 h), fun word hword => ?_, htext⟩
    obtain ⟨w, hw, rfl⟩ := List.mem_map.1 hword
    exact hwords w hw

theorem words?_eq_none_iff_spells {text : String} :
    words? text.toList = none ↔ ¬ ∃ words, Spells words text := by
  constructor
  · rintro h ⟨words, hspells⟩
    rw [words?_eq_some_iff_spells.2 hspells] at h
    cases h
  · intro h
    cases hwords : words? text.toList with
    | none => rfl
    | some words =>
      refine absurd ⟨words.map String.ofList, ?_⟩ h
      rw [← words?_eq_some_iff_spells, map_toList_map_ofList, hwords]

/-! ## The first verb token -/

theorem verb?_eq_some_iff {words after : List String} {verb : Verb} :
    verb? words = some (verb, after) ↔ ∃ token, VerbToken verb token ∧ words = token ++ after := by
  constructor
  · intro h
    unfold verb? at h
    split at h
    · cases h; exact ⟨_, .byField, rfl⟩
    · cases h; exact ⟨_, .fromAnchor, rfl⟩
    · cases h; exact ⟨_, .joinedWith, rfl⟩
    · cases h
  · rintro ⟨token, htoken, rfl⟩
    cases htoken <;> rfl

theorem verb?_eq_none_iff {words : List String} : verb? words = none ↔ ¬ VerbAt words 0 := by
  constructor
  · rintro h ⟨verb, token, after, htoken, hwords⟩
    rw [List.drop_zero] at hwords
    rw [verb?_eq_some_iff.2 ⟨token, htoken, hwords⟩] at h
    cases h
  · intro h
    cases hverb : verb? words with
    | none => rfl
    | some found =>
      obtain ⟨token, htoken, hwords⟩ := verb?_eq_some_iff.1 hverb
      exact absurd ⟨found.1, token, found.2, htoken, hwords⟩ h

/-- Words are split at a verb token, and no other one begins before it. -/
def SplitsAtVerb (words before : List String) (verb : Verb) (after : List String) : Prop :=
  (∃ token, VerbToken verb token ∧ words = before ++ token ++ after) ∧
    ∀ position, position < before.length → ¬ VerbAt words position

/-- A token at the front is where words are split. -/
theorem splitsAtVerb_of_front {words before after after' : List String} {verb verb' : Verb}
    (hfront : verb? words = some (verb', after')) :
    SplitsAtVerb words before verb after ↔ before = [] ∧ verb' = verb ∧ after' = after := by
  obtain ⟨token', htoken', hwords'⟩ := verb?_eq_some_iff.1 hfront
  constructor
  · rintro ⟨⟨token, htoken, hwords⟩, hfirst⟩
    cases before with
    | nil =>
      have hsame : verb? words = some (verb, after) :=
        verb?_eq_some_iff.2 ⟨token, htoken, hwords⟩
      rw [hfront] at hsame
      cases hsame
      exact ⟨rfl, rfl, rfl⟩
    | cons first before => exact absurd ⟨_, token', _, htoken', hwords'⟩ (hfirst 0 (by simp))
  · rintro ⟨rfl, rfl, rfl⟩
    exact ⟨⟨token', htoken', hwords'⟩, fun position hposition => absurd hposition (by simp)⟩

/-- Without a token at the front, the words after the first one are split. -/
theorem splitsAtVerb_cons {word : String} {rest before after : List String} {verb : Verb}
    (hnone : ¬ VerbAt (word :: rest) 0) :
    SplitsAtVerb (word :: rest) before verb after ↔
      ∃ before', word :: before' = before ∧ SplitsAtVerb rest before' verb after := by
  constructor
  · rintro ⟨⟨token, htoken, hwords⟩, hfirst⟩
    cases before with
    | nil => exact absurd ⟨verb, token, after, htoken, hwords⟩ hnone
    | cons first before =>
      obtain ⟨rfl, hrest⟩ := List.cons.inj hwords
      refine ⟨before, rfl, ⟨token, htoken, hrest⟩, fun position hposition => ?_⟩
      exact hfirst (position + 1) (by simpa using hposition)
  · rintro ⟨before', rfl, ⟨token, htoken, hwords⟩, hfirst⟩
    refine ⟨⟨token, htoken, by rw [hwords]; rfl⟩, fun position hposition => ?_⟩
    cases position with
    | zero => exact hnone
    | succ position => exact hfirst position (by simpa using hposition)

/-- The split stands at the first position at which a verb token begins. -/
theorem splitAtVerb?_eq_some_iff {words before after : List String} {verb : Verb} :
    splitAtVerb? words = some (before, verb, after) ↔ SplitsAtVerb words before verb after := by
  induction words generalizing before with
  | nil =>
    constructor
    · intro h; cases h
    · rintro ⟨⟨token, htoken, hwords⟩, _⟩
      cases htoken <;> simp at hwords
  | cons word rest ih =>
    rw [splitAtVerb?]
    cases hverb : verb? (word :: rest) with
    | some found =>
      rw [splitsAtVerb_of_front hverb]
      simp only [Option.some.injEq, Prod.mk.injEq, eq_comm]
    | none =>
      rw [splitsAtVerb_cons (verb?_eq_none_iff.1 hverb), Option.map_eq_some_iff]
      constructor
      · rintro ⟨⟨before', verb', after'⟩, hrest, heq⟩
        cases heq
        exact ⟨before', rfl, ih.1 hrest⟩
      · rintro ⟨before', rfl, hrest⟩
        exact ⟨(before', verb, after), ih.2 hrest, rfl⟩

theorem splitAtVerb?_eq_none_iff {words : List String} :
    splitAtVerb? words = none ↔ ∀ position, ¬ VerbAt words position := by
  induction words with
  | nil =>
    refine ⟨fun _ position hat => ?_, fun _ => rfl⟩
    obtain ⟨verb, token, after, htoken, hwords⟩ := hat
    cases htoken <;> simp at hwords
  | cons word rest ih =>
    rw [splitAtVerb?]
    cases hverb : verb? (word :: rest) with
    | some found =>
      obtain ⟨token, htoken, hwords⟩ := verb?_eq_some_iff.1 hverb
      constructor
      · intro h; cases h
      · intro h; exact absurd ⟨_, token, _, htoken, hwords⟩ (h 0)
    | none =>
      have hnone := verb?_eq_none_iff.1 hverb
      simp only [Option.map_eq_none_iff, ih]
      constructor
      · intro h position
        cases position with
        | zero => exact hnone
        | succ position => exact h position
      · intro h position
        exact h (position + 1)

/-! ## Reading -/

theorem asksForAll_cons_iff {first : String} {rest : List String} :
    AsksForAll (first :: rest) ↔
      first = "All" ∧ rest ≠ [] ∧ Inflection.isPlural (join rest) := by
  constructor
  · rintro ⟨rest', hwords, hne, hplural⟩
    obtain ⟨rfl, rfl⟩ := List.cons.inj hwords
    exact ⟨rfl, hne, hplural⟩
  · rintro ⟨rfl, hne, hplural⟩
    exact ⟨rest, rfl, hne, hplural⟩

/-- Reading a text that consists of words with at most one `By` comes down to the intent of these
words. -/
theorem read_of_spells {s : String} {words : List String}
    (hspells : Spells words (Text.trimmed s)) (hby : words.count "By" ≤ 1) :
    read s = (intentOfWords? (Text.trimmed s) words).elim .notQuery .query := by
  have hwords := words?_eq_some_iff_spells.2 hspells
  rw [Text.trimmed, String.toList_ofList] at hwords
  have hnot : ¬ 1 < words.count "By" := Nat.not_lt.2 hby
  simp only [read, hwords, map_ofList_map_toList, hnot, if_false, Text.trimmed]
  cases intentOfWords? (String.ofList (Text.trim s.toList)) words <;> rfl

theorem read_of_severalBy {s : String} {words : List String}
    (hspells : Spells words (Text.trimmed s)) (hby : 2 ≤ words.count "By") :
    read s = .severalBy (Text.trimmed s) := by
  have hwords := words?_eq_some_iff_spells.2 hspells
  rw [Text.trimmed, String.toList_ofList] at hwords
  have hlt : 1 < words.count "By" := hby
  simp only [read, hwords, map_ofList_map_toList, hlt, if_true, Text.trimmed]

theorem read_of_noWords {s : String} (h : ¬ ∃ words, Spells words (Text.trimmed s)) :
    read s = .notQuery := by
  have hwords := words?_eq_none_iff_spells.2 h
  rw [Text.trimmed, String.toList_ofList] at hwords
  simp only [read, hwords]

/-- What the grammar says about a text is what the text is read as. -/
theorem read_of_grammar {s : String} {reading : Reading}
    (h : Grammar (Text.trimmed s) reading) : read s = reading := by
  cases h with
  | noWords hnone => exact read_of_noWords hnone
  | severalBy hspells hby => exact read_of_severalBy hspells hby
  | @all rest hspells hby hne hplural hverb =>
    have hsplit : splitAtVerb? rest = none :=
      splitAtVerb?_eq_none_iff.2 fun position => hverb (position + 1) (by omega)
    rw [read_of_spells hspells hby, intentOfWords?, hsplit]
    simp [hne, hplural]
  | @verb verb before token after hspells hby hne htoken hfirst =>
    cases before with
    | nil => exact absurd rfl hne
    | cons first before =>
      -- The first word is never looked at for a verb, so positions behind it count from one.
      have hsplit : splitAtVerb? (before ++ token ++ after) = some (before, verb, after) := by
        refine splitAtVerb?_eq_some_iff.2 ⟨⟨token, htoken, rfl⟩, fun position hposition => ?_⟩
        exact hfirst (position + 1) (by omega) (by simpa using hposition)
      have hafter : ∀ word ∈ after, isWord word.toList :=
        fun word hword => hspells.isWord word (by simp [hword])
      rw [read_of_spells hspells hby]
      simp only [List.cons_append, intentOfWords?, hsplit, keyOf_join hafter, Option.elim_some]
  | @noVerb words hspells hby hall hverb =>
    cases words with
    | nil => exact absurd rfl hspells.nonempty
    | cons first rest =>
      have hsplit : splitAtVerb? rest = none :=
        splitAtVerb?_eq_none_iff.2 fun position => hverb (position + 1) (by omega)
      rw [asksForAll_cons_iff] at hall
      rw [read_of_spells hspells hby, intentOfWords?, hsplit]
      simp only [if_neg hall, Option.elim_none]

/-- The grammar has something to say about every text. -/
theorem grammar_total (text : String) : ∃ reading, Grammar text reading := by
  by_cases hwords : ∃ words, Spells words text
  · obtain ⟨words, hspells⟩ := hwords
    by_cases hby : 2 ≤ words.count "By"
    · exact ⟨_, .severalBy hspells hby⟩
    · have hby : words.count "By" ≤ 1 := by omega
      cases words with
      | nil => exact absurd rfl hspells.nonempty
      | cons first rest =>
        cases hsplit : splitAtVerb? rest with
        | some found =>
          obtain ⟨⟨token, htoken, hrest⟩, hfirst⟩ := splitAtVerb?_eq_some_iff.1 hsplit
          subst hrest
          refine ⟨_, @Grammar.verb text _ (first :: found.1) token found.2.2 hspells hby (by simp)
            htoken fun position hone hposition => ?_⟩
          cases position with
          | zero => omega
          | succ position => exact hfirst position (by simpa using hposition)
        | none =>
          have hverb : ∀ position, 1 ≤ position → ¬ VerbAt (first :: rest) position := by
            intro position hone
            cases position with
            | zero => omega
            | succ position => exact splitAtVerb?_eq_none_iff.1 hsplit position
          by_cases hall : AsksForAll (first :: rest)
          · obtain ⟨rfl, hne, hplural⟩ := asksForAll_cons_iff.1 hall
            exact ⟨_, .all hspells hby hne hplural hverb⟩
          · exact ⟨_, .noVerb hspells hby hall hverb⟩
  · exact ⟨_, .noWords hwords⟩

theorem grammar_read (s : String) : Grammar (Text.trimmed s) (read s) := by
  obtain ⟨reading, h⟩ := grammar_total (Text.trimmed s)
  rwa [read_of_grammar h]

/-! ## Main statement -/

/-- A verb token does not reach from the words of an entity into a token that follows them: no
token begins with `With`. -/
theorem verbAt_of_append {entity token key : List String} {verb : Verb}
    (htoken : VerbToken verb token) {position : Nat} (hposition : position < entity.length)
    (h : VerbAt (entity ++ token ++ key) position) : VerbAt entity position := by
  obtain ⟨verb', token', after, htoken', hwords⟩ := h
  rw [List.append_assoc, List.drop_append_of_le_length (Nat.le_of_lt hposition)] at hwords
  cases hdrop : entity.drop position with
  | nil =>
    have hlength := congrArg List.length hdrop
    rw [List.length_drop, List.length_nil] at hlength
    omega
  | cons word rest =>
    rw [hdrop, List.cons_append] at hwords
    cases htoken' with
    | byField => exact ⟨_, _, rest, .byField, by rw [hdrop, (List.cons.inj hwords).1]; rfl⟩
    | fromAnchor => exact ⟨_, _, rest, .fromAnchor, by rw [hdrop, (List.cons.inj hwords).1]; rfl⟩
    | joinedWith =>
      -- Its second word could reach into `token`, but no token begins with `With`.
      obtain ⟨rfl, hrest⟩ := List.cons.inj hwords
      cases rest with
      | nil => cases htoken <;> simp at hrest
      | cons next rest =>
        obtain ⟨rfl, -⟩ := List.cons.inj hrest
        exact ⟨_, _, rest, .joinedWith, hdrop⟩

/-- Every text is read as the grammar says, and as nothing else. Several words `By` make it an
improper identifier for every engine. In particular an entity without a verb token after its first
word, any verb and any key are found again in the words that they make up. -/
theorem read_follows_grammar (s : String) :
    Text.Trims s (Text.trimmed s) ∧
    (∀ reading, read s = reading ↔ Grammar (Text.trimmed s) reading) ∧
    (∀ words, Spells words (Text.trimmed s) → 2 ≤ words.count "By" →
      ∀ settings, ∃ fault, Engine.plan? settings s = .error fault ∧ fault.kind = .invalidClassName) ∧
    ∀ verb entity token key, Spells (entity ++ token ++ key) (Text.trimmed s) →
      (entity ++ token ++ key).count "By" ≤ 1 → entity ≠ [] → VerbToken verb token →
      (∀ position, 1 ≤ position → ¬ VerbAt entity position) →
      read s = .query ⟨Text.trimmed s, join entity, verb, keyOf (join key)⟩ := by
  refine ⟨Text.trims_trimmed s, fun reading => ⟨?_, read_of_grammar⟩, ?_, ?_⟩
  · rintro rfl
    exact grammar_read s
  · intro words hspells hby settings
    refine ⟨.invalidIdentifier (Text.trimmed s) .severalBy, ?_, rfl⟩
    rw [Engine.plan?, read_of_severalBy hspells hby]
  · intro verb entity token key hspells hby hne htoken hverb
    refine read_of_grammar (.verb hspells hby hne htoken fun position hone hposition hat => ?_)
    exact hverb position hone (verbAt_of_append htoken hposition hat)

/-- The `By` of `Bylines` is no verb, and of the verb tokens the first one counts. -/
example : read " BylinesFromPostByAuthor\t" =
    .query ⟨"BylinesFromPostByAuthor", "Bylines", .fromAnchor, some "post_by_author"⟩ := by
  cbv

end NamedQuery.Identifier
