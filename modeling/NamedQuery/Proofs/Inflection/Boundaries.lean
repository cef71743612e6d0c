import Mathlib.Data.List.Chain
import NamedQuery.Plan.Basic
import NamedQuery.Proofs.Inflection.Regular

/-! # Boundaries that are seen

`underscore` finds the words of a name by their capitals, and it misses just one kind of boundary: the one
behind a single letter, if no small letter follows the next capital (`separate_flatten`). So `camelize`
takes back what `underscore` does to a name exactly if the name has no such boundary, and the same holds
the other way round (`underscore_camelize_inverse`). -/

namespace NamedQuery.Inflection

open Identifier (continues isWord isUpper_iff isLower_iff isDigit_iff)

/-! ## Joining words -/

/-- The boundary between two words is not seen: the first one is a single letter, and the second
character of the other one is not a small letter, or there is none. -/
def hidden (word next : List Char) : Bool :=
  word.length == 1 && !next[1]?.any Char.isLower

def AllSeen (words : List (List Char)) : Prop :=
  words.IsChain fun word next => hidden word next = false

/-- Words joined by underscores wherever the boundary is seen. -/
def joined : List (List Char) → List Char
  | [] => []
  | [word] => word
  | word :: next :: rest =>
    word ++ (if hidden word next then [] else ['_']) ++ joined (next :: rest)

theorem joined_eq_snake {words : List (List Char)} (h : AllSeen words) : joined words = snake words := by
  induction words with
  | nil => rfl
  | cons word rest ih =>
    cases rest with
    | nil => exact (snake_singleton word).symm
    | cons next rest =>
      obtain ⟨hseen, hrest⟩ := List.isChain_cons_cons.1 h
      rw [joined, hseen, ih hrest, snake_cons (List.cons_ne_nil _ _)]
      simp

theorem length_joined_le (words : List (List Char)) : (joined words).length ≤ (snake words).length := by
  induction words with
  | nil => exact Nat.le_refl _
  | cons word rest ih =>
    cases rest with
    | nil => rw [snake_singleton, joined]
    | cons next rest =>
      have hsep : (if hidden word next then [] else ['_'] : List Char).length ≤ 1 := by
        split <;> simp
      rw [joined, snake_cons (List.cons_ne_nil _ _)]
      simp only [List.length_append, List.length_cons]
      omega

/-- Every boundary that is not seen makes the name shorter. -/
theorem allSeen_of_length_eq {words : List (List Char)}
    (h : (joined words).length = (snake words).length) : AllSeen words := by
  induction words with
  | nil => exact List.isChain_nil
  | cons word rest ih =>
    cases rest with
    | nil => exact List.isChain_singleton word
    | cons next rest =>
      -- A hidden boundary makes `joined` shorter by one, and nothing after it makes up for that.
      have hle := length_joined_le (next :: rest)
      rw [joined, snake_cons (List.cons_ne_nil _ _)] at h
      simp only [List.length_append, List.length_cons] at h
      cases hhidden : hidden word next with
      | true =>
        rw [hhidden] at h
        simp only [if_true, List.length_nil] at h
        omega
      | false =>
        rw [hhidden] at h
        simp only [Bool.false_eq_true, if_false, List.length_singleton] at h
        exact List.isChain_cons_cons.2 ⟨hhidden, ih (by omega)⟩

theorem lowered_joined_eq_iff {words : List (List Char)} :
    lowered (joined words) = snake (words.map lowered) ↔ AllSeen words := by
  have hsnake : snake (words.map lowered) = lowered (snake words) := (map_snake (by decide) words).symm
  rw [hsnake]
  constructor
  · intro h
    have hlength := congrArg List.length h
    rw [lowered, lowered, List.length_map, List.length_map] at hlength
    exact allSeen_of_length_eq hlength
  · intro h
    rw [joined_eq_snake h]

theorem mem_joined {words : List (List Char)} {c : Char} (h : c ∈ joined words) :
    c = '_' ∨ ∃ word ∈ words, c ∈ word := by
  induction words with
  | nil => cases h
  | cons word rest ih =>
    cases rest with
    | nil => exact .inr ⟨word, List.mem_singleton_self word, h⟩
    | cons next rest =>
      rw [joined, List.mem_append, List.mem_append] at h
      rcases h with (h | h) | h
      · exact .inr ⟨word, List.mem_cons_self .., h⟩
      · split at h
        · cases h
        · exact .inl (List.mem_singleton.1 h)
      · rcases ih h with rfl | ⟨other, hother, hc⟩
        · exact .inl rfl
        · exact .inr ⟨other, List.mem_cons_of_mem _ hother, hc⟩

/-! ## What `underscore` sees -/

theorem isLower_eq_false_of_isUpper {c : Char} (h : c.isUpper) : c.isLower = false := by
  rw [isUpper_iff] at h
  rw [← Bool.not_eq_true, isLower_iff]
  omega

theorem isDigit_eq_false_of_isUpper {c : Char} (h : c.isUpper) : c.isDigit = false := by
  rw [isUpper_iff] at h
  rw [← Bool.not_eq_true, isDigit_iff]
  omega

/-- A capital after another one begins a word just if a small letter follows. -/
theorem Alphabet.isBoundary_capital {p c : Char} (hp : p.isUpper) (hc : c.isUpper)
    (next : Option Char) : ascii.isBoundary p c next = next.any Char.isLower := by
  have hdigit : Text.isDecimalDigit p = false := by
    rw [Text.isDecimalDigit_of_ascii (ascii_of_isUpper hp), isDigit_eq_false_of_isUpper hp]
  simp only [isBoundary, ascii, hc, hp, hdigit, isLower_eq_false_of_isUpper hp, Bool.true_and,
    Bool.false_or]

/-- The first character of further words is no small letter. -/
theorem head?_flatten_any_isLower {words : List (List Char)} (h : ∀ word ∈ words, isWord word) :
    words.flatten.head?.any Char.isLower = false := by
  cases words with
  | nil => rfl
  | cons word rest =>
    have hword := h word (List.mem_cons_self ..)
    cases word with
    | nil => cases hword
    | cons c word => exact isLower_eq_false_of_isUpper (isWord_cons_iff.1 hword).1

/-- The beginning of a word is seen unless the boundary to the word before is a hidden one. -/
theorem isBoundary_word {word : List Char} (hword : isWord word) {c : Char} {rest : List Char}
    (hnext : isWord (c :: rest)) {words : List (List Char)} (hwords : ∀ word ∈ words, isWord word) :
    (word.getLast?.any fun p => Alphabet.ascii.isBoundary p c (rest ++ words.flatten).head?) =
      !hidden word (c :: rest) := by
  have hc := (isWord_cons_iff.1 hnext).1
  match word, hword with
  | [d], hword =>
    have hd := (isWord_cons_iff.1 hword).1
    have hsecond : (rest ++ words.flatten).head?.any Char.isLower = rest.head?.any Char.isLower := by
      cases rest with
      | nil => exact head?_flatten_any_isLower hwords
      | cons e rest => rfl
    show Alphabet.ascii.isBoundary d c _ = _
    rw [Alphabet.isBoundary_capital hd hc, hsecond]
    cases rest with
    | nil => rfl
    | cons e rest => exact (Bool.not_not _).symm
  | d :: e :: tail, hword =>
    -- The last character of a longer word is no capital, and then any capital begins a word.
    obtain ⟨p, hlast⟩ : ∃ p, (e :: tail).getLast? = some p := ⟨_, List.getLast?_cons⟩
    have hp : continues p := (isWord_cons_iff.1 hword).2 p (List.mem_of_getLast? hlast)
    rw [List.getLast?_cons_cons, hlast]
    exact Alphabet.isBoundary_ascii hp hc _

theorem separateAfter_next {word next : List Char} (hword : isWord word) (hnext : isWord next)
    {words : List (List Char)} (hwords : ∀ word ∈ words, isWord word) :
    separateAfter word.getLast? (next ++ words.flatten) =
      (if hidden word next then [] else ['_']) ++ next ++
        separateAfter next.getLast? words.flatten := by
  cases next with
  | nil => cases hnext
  | cons c rest =>
    rw [List.cons_append, separateAfter, isBoundary_word hword hnext hwords,
      separateAfter_small _ (isWord_cons_iff.1 hnext).2, getLast?_cons_eq_or]
    cases hidden word (c :: rest) <;> rfl

theorem append_separateAfter {word : List Char} {rest : List (List Char)}
    (h : ∀ other ∈ word :: rest, isWord other) :
    word ++ separateAfter word.getLast? rest.flatten = joined (word :: rest) := by
  -- On the words that are left, behind any word.
  induction rest generalizing word with
  | nil => exact List.append_nil word
  | cons next rest ih =>
    obtain ⟨hword, htail⟩ := List.forall_mem_cons.1 h
    obtain ⟨hnext, hrest⟩ := List.forall_mem_cons.1 htail
    rw [List.flatten_cons, separateAfter_next hword hnext hrest, joined, ← ih htail]
    simp only [List.append_assoc]

/-- Underscores are put between words wherever the boundary is seen. -/
theorem separate_flatten {words : List (List Char)} (h : ∀ word ∈ words, isWord word) :
    separate words.flatten = joined words := by
  cases words with
  | nil => rfl
  | cons word rest =>
    rw [separate, List.flatten_cons, separateAfter_first (h word (List.mem_cons_self ..)),
      append_separateAfter h]

theorem underscore_flatten {words : List (List Char)} (h : ∀ word ∈ words, isWord word) :
    underscore (String.ofList words.flatten) = String.ofList (lowered (joined words)) := by
  have hchars : ∀ c ∈ joined words, c.toNat < 0x80 ∧ unhyphened c = id c := by
    intro c hc
    rcases mem_joined hc with rfl | ⟨word, hword, hc⟩
    · decide
    · refine ⟨ascii_of_isWord (h word hword) c hc, if_neg ?_⟩
      rintro rfl
      rcases letter_of_isWord (h word hword) hc with hupper | hcontinues
      · exact absurd hupper (by decide)
      · exact absurd hcontinues (by decide)
  have hplain : (joined words).map unhyphened = joined words := by
    rw [List.map_congr_left fun c hc => (hchars c hc).2, List.map_id]
  rw [underscore, String.toList_ofList, separate_flatten h, hplain,
    Text.lower_of_ascii fun c hc => (hchars c hc).1]
  rfl

/-! ## There and back -/

/-- A small letter, followed by small letters and digits. -/
def IsPart (part : List Char) : Prop :=
  ∃ c rest, part = c :: rest ∧ c.isLower ∧ Small rest

theorem IsPart.small {part : List Char} (h : IsPart part) : Small part := by
  obtain ⟨c, rest, rfl, hc, hrest⟩ := h
  exact List.forall_mem_cons.2 ⟨continues_of_isLower hc, hrest⟩

theorem IsPart.isWord_capitalize {part : List Char} (h : IsPart part) : isWord (capitalize part) := by
  obtain ⟨c, rest, rfl, hc, hrest⟩ := h
  rw [capitalize_of_ascii (ascii_of_continues (continues_of_isLower hc))]
  exact isWord_cons_iff.2 ⟨(toUpper_of_isLower hc).1, hrest⟩

theorem isLower_toLower_of_isUpper {c : Char} (h : c.isUpper) : c.toLower.isLower := by
  have hall : ∀ n < 0x80, (Char.ofNat n).isUpper → (Char.ofNat n).toLower.isLower := by decide
  exact forall_ascii (p := fun c => c.isUpper → c.toLower.isLower) hall (ascii_of_isUpper h) h

theorem isPart_lowered {word : List Char} (h : isWord word) : IsPart (lowered word) := by
  cases word with
  | nil => cases h
  | cons c rest =>
    obtain ⟨hc, hrest⟩ := isWord_cons_iff.1 h
    exact ⟨c.toLower, rest, lowered_of_isWord h, isLower_toLower_of_isUpper hc, hrest⟩

/-- Words that are joined without an underscore become one part. -/
theorem IsPart.append {part other : List Char} (h : IsPart part) (h' : IsPart other) :
    IsPart (part ++ other) := by
  obtain ⟨c, rest, rfl, hc, hrest⟩ := h
  exact ⟨c, rest ++ other, rfl, hc, hrest.append h'.small⟩

/-- However words are joined, the name consists of parts in small letters. -/
theorem exists_parts {words : List (List Char)} (h : ∀ word ∈ words, isWord word)
    (hne : words ≠ []) :
    ∃ part parts, (∀ other ∈ part :: parts, IsPart other) ∧
      lowered (joined words) = snake (part :: parts) := by
  induction words with
  | nil => exact absurd rfl hne
  | cons word rest ih =>
    obtain ⟨hword, hrest⟩ := List.forall_mem_cons.1 h
    cases rest with
    | nil =>
      exact ⟨lowered word, [], List.forall_mem_singleton.2 (isPart_lowered hword),
        (snake_singleton _).symm⟩
    | cons next rest =>
      obtain ⟨part, parts, hparts, hjoined⟩ := ih hrest (List.cons_ne_nil _ _)
      have hlowered : lowered (joined (word :: next :: rest)) =
          lowered word ++ (if hidden word next then [] else ['_']) ++ snake (part :: parts) := by
        rw [← hjoined, joined, lowered_append, lowered_append]
        cases hidden word next <;> rfl
      rw [hlowered]
      cases hidden word next with
      | true =>
        -- The word runs into the part behind it.
        obtain ⟨hpart, htail⟩ := List.forall_mem_cons.1 hparts
        refine ⟨lowered word ++ part, parts,
          List.forall_mem_cons.2 ⟨(isPart_lowered hword).append hpart, htail⟩, ?_⟩
        cases parts with
        | nil => simp
        | cons other parts => simp [snake_cons]
      | false =>
        refine ⟨lowered word, part :: parts,
          List.forall_mem_cons.2 ⟨isPart_lowered hword, hparts⟩, ?_⟩
        simp [snake_cons]

theorem isWord_of_mem_capitalize {parts : List (List Char)} (h : ∀ part ∈ parts, IsPart part) :
    ∀ word ∈ parts.map capitalize, isWord word := by
  intro word hword
  obtain ⟨part, hpart, rfl⟩ := List.mem_map.1 hword
  exact (h part hpart).isWord_capitalize

theorem map_lowered_capitalize {parts : List (List Char)} (h : ∀ part ∈ parts, IsPart part) :
    (parts.map capitalize).map lowered = parts := by
  have hpart : ∀ part ∈ parts, (lowered ∘ capitalize) part = id part :=
    fun part hpart => (h part hpart).small.lowered_capitalize
  rw [List.map_map, List.map_congr_left hpart, List.map_id]

theorem map_capitalize_lowered {words : List (List Char)} (h : ∀ word ∈ words, isWord word) :
    (words.map lowered).map capitalize = words := by
  have hword : ∀ word ∈ words, (capitalize ∘ lowered) word = id word :=
    fun word hword => capitalize_lowered (h word hword)
  rw [List.map_map, List.map_congr_left hword, List.map_id]

theorem camelize_snake_parts {parts : List (List Char)} (h : ∀ part ∈ parts, IsPart part) :
    camelize (String.ofList (snake parts)) = String.ofList (parts.map capitalize).flatten := by
  rw [camelize_snake fun part hpart => (h part hpart).small, List.flatMap_def]

/-- A name is made of words in one way. -/
theorem words_unique {words words' : List (List Char)} (h : ∀ word ∈ words, isWord word)
    (h' : ∀ word ∈ words', isWord word) (heq : words.flatten = words'.flatten) : words = words' := by
  have hscan := Identifier.scanWords_flatten h
  rw [heq, Identifier.scanWords_flatten h'] at hscan
  exact (Prod.mk.inj (Option.some.inj hscan)).2.symm

/-- `camelize` takes back `underscore` exactly if every boundary is seen. -/
theorem camelize_underscore_iff {words : List (List Char)} (h : ∀ word ∈ words, isWord word) :
    camelize (underscore (String.ofList words.flatten)) = String.ofList words.flatten ↔
      AllSeen words := by
  rw [underscore_flatten h]
  constructor
  · intro hback
    by_cases hne : words = []
    · exact hne ▸ List.isChain_nil
    · obtain ⟨part, parts, hparts, hjoined⟩ := exists_parts h hne
      rw [hjoined, camelize_snake_parts hparts] at hback
      -- The parts are the words themselves, in small letters, so no two of these became one.
      have hwords := words_unique (isWord_of_mem_capitalize hparts) h (String.ofList_injective hback)
      rw [← map_lowered_capitalize hparts, hwords] at hjoined
      exact lowered_joined_eq_iff.1 hjoined
  · intro hseen
    have hparts : ∀ part ∈ words.map lowered, IsPart part := by
      intro part hpart
      obtain ⟨word, hword, rfl⟩ := List.mem_map.1 hpart
      exact isPart_lowered (h word hword)
    rw [lowered_joined_eq_iff.2 hseen, camelize_snake_parts hparts, map_capitalize_lowered h]

theorem hidden_capitalize {part next : List Char} (hpart : IsPart part) (hnext : IsPart next) :
    hidden (capitalize part) (capitalize next) = hidden part next := by
  obtain ⟨c, rest, rfl, hc, _⟩ := hpart
  obtain ⟨d, tail, rfl, hd, _⟩ := hnext
  rw [capitalize_of_ascii (ascii_of_continues (continues_of_isLower hc)),
    capitalize_of_ascii (ascii_of_continues (continues_of_isLower hd))]
  rfl

theorem allSeen_capitalize_iff {parts : List (List Char)} (h : ∀ part ∈ parts, IsPart part) :
    AllSeen (parts.map capitalize) ↔ AllSeen parts := by
  induction parts with
  | nil => exact Iff.rfl
  | cons part rest ih =>
    obtain ⟨hpart, hrest⟩ := List.forall_mem_cons.1 h
    cases rest with
    | nil => exact ⟨fun _ => List.isChain_singleton _, fun _ => List.isChain_singleton _⟩
    | cons next rest =>
      have htail := ih hrest
      unfold AllSeen at htail ⊢
      rw [List.map_cons, List.map_cons, List.isChain_cons_cons, List.isChain_cons_cons, ← List.map_cons,
        htail, hidden_capitalize hpart (hrest next (List.mem_cons_self ..))]

/-- `underscore` takes back `camelize` exactly if every boundary is seen. -/
theorem underscore_camelize_iff {parts : List (List Char)} (h : ∀ part ∈ parts, IsPart part) :
    underscore (camelize (String.ofList (snake parts))) = String.ofList (snake parts) ↔
      AllSeen parts := by
  rw [camelize_snake_parts h, underscore_flatten (isWord_of_mem_capitalize h), String.ofList_inj,
    ← allSeen_capitalize_iff h, ← lowered_joined_eq_iff, map_lowered_capitalize h]

/-! ## Main statement -/

/-- A name made of words, of which every boundary is seen. -/
def ClearName (name : String) : Prop :=
  ∃ words, (∀ word ∈ words, isWord word) ∧ AllSeen words ∧ name = String.ofList words.flatten

/-- `underscore` puts the words of a name into small letters, and underscores between them wherever the
boundary is seen. `camelize` takes this back exactly if every boundary is, so that identifiers with this
property have different keys. From the other side `underscore` takes back `camelize` for the same parts. -/
theorem underscore_camelize_inverse :
    (∀ words, (∀ word ∈ words, isWord word) →
      underscore (String.ofList words.flatten) = String.ofList (lowered (joined words)) ∧
      (camelize (underscore (String.ofList words.flatten)) = String.ofList words.flatten ↔
        AllSeen words)) ∧
    (∀ plan other : Plan, ClearName plan.identifier → ClearName other.identifier →
      plan.entityKey = other.entityKey → plan.identifier = other.identifier) ∧
    (∀ parts, (∀ part ∈ parts, IsPart part) →
      (underscore (camelize (String.ofList (snake parts))) = String.ofList (snake parts) ↔
        AllSeen parts)) := by
  refine ⟨fun words h => ⟨underscore_flatten h, camelize_underscore_iff h⟩, ?_,
    fun parts h => underscore_camelize_iff h⟩
  rintro plan other ⟨words, hwords, hseen, hname⟩ ⟨words', hwords', hseen', hname'⟩ hkey
  unfold Plan.entityKey at hkey
  rw [hname, hname'] at hkey ⊢
  rw [← (camelize_underscore_iff hwords).2 hseen, hkey, (camelize_underscore_iff hwords').2 hseen']

/-- The letters of an acronym stay together, and only the first one becomes a capital again. -/
example : underscore "HTTPCode" = "http_code" ∧ camelize "http_code" = "HttpCode" := by
  decide

theorem httpCode_not_taken_back :
    let words := ["H", "T", "T", "P", "Code"].map String.toList
    (∀ word ∈ words, isWord word) ∧
      underscore (String.ofList words.flatten) = String.ofList (lowered (joined words)) ∧
      camelize (underscore (String.ofList words.flatten)) ≠ String.ofList words.flatten := by
  intro words
  have hwords : ∀ word ∈ words, isWord word := by decide
  obtain ⟨hunderscore, hback⟩ := underscore_camelize_inverse.1 words hwords
  refine ⟨hwords, hunderscore, fun heq => ?_⟩
  have hseen := (List.isChain_cons_cons.1 (hback.1 heq)).1
  exact absurd hseen (by decide)

end NamedQuery.Inflection
