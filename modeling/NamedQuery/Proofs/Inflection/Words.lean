import NamedQuery.Identifier.Words
import NamedQuery.Inflection.Number

/-! # Names made of words

Where the words of a compound name are found. A name in snake_case is split before its last word
(`splitLast_snake`), and so is a name in CamelCase (`splitLast_camel`); to inflect either one is to
inflect that word (`inflect_snake`, `inflect_camel`). `underscore` and `camelize` take the two
spellings of a name to each other (`underscore_camel`, `camelize_snake`). -/

namespace NamedQuery.Inflection

open Identifier (continues isWord isUpper_iff isLower_iff isDigit_iff isUpper_eq_false_of_continues)

/-! ## Characters -/

/-- What holds for the first 128 characters holds for all of ASCII. -/
theorem forall_ascii {p : Char → Prop} (h : ∀ n < 0x80, p (Char.ofNat n)) {c : Char}
    (hc : c.toNat < 0x80) : p c :=
  Char.ofNat_toNat c ▸ h c.toNat hc

theorem ascii_of_continues {c : Char} (h : continues c) : c.toNat < 0x80 := by
  rw [continues, Bool.or_eq_true, isLower_iff, isDigit_iff] at h
  omega

theorem ascii_of_isUpper {c : Char} (h : c.isUpper) : c.toNat < 0x80 := by
  rw [isUpper_iff] at h
  omega

theorem continues_of_isLower {c : Char} (h : c.isLower) : continues c := by
  rw [continues, h, Bool.true_or]

theorem ne_underscore_of_continues {c : Char} (h : continues c) : c ≠ '_' := by
  rintro rfl
  exact absurd h (by decide)

theorem ne_underscore_of_isUpper {c : Char} (h : c.isUpper) : c ≠ '_' := by
  rintro rfl
  exact absurd h (by decide)

theorem toLower_of_not_isUpper {c : Char} (h : c.isUpper = false) : c.toLower = c := by
  have hdef : c.isUpper = decide (c.val ≥ 'A'.val ∧ c.val ≤ 'Z'.val) := rfl
  rw [hdef, decide_eq_false_iff_not] at h
  exact dif_neg h

theorem toLower_of_continues {c : Char} (h : continues c) : c.toLower = c :=
  toLower_of_not_isUpper (isUpper_eq_false_of_continues h)

theorem continues_toLower_of_isUpper {c : Char} (h : c.isUpper) : continues c.toLower := by
  have hall : ∀ n < 0x80, (Char.ofNat n).isUpper → continues (Char.ofNat n).toLower := by decide
  exact forall_ascii (p := fun c => c.isUpper → continues c.toLower) hall (ascii_of_isUpper h) h

theorem not_isUppercase_of_continues {c : Char} (h : continues c) : Text.isUppercase c = false := by
  rw [Text.isUppercase_of_ascii (ascii_of_continues h), isUpper_eq_false_of_continues h]

/-- A capital after a small letter or a digit begins a word, whatever follows. -/
theorem Alphabet.isBoundary_ascii {p c : Char} (hp : continues p) (hc : c.isUpper)
    (next : Option Char) : ascii.isBoundary p c next := by
  have hdigit : Text.isDecimalDigit p = p.isDigit :=
    Text.isDecimalDigit_of_ascii (ascii_of_continues hp)
  have hseen : (p.isLower || p.isDigit) = true := hp
  simp only [isBoundary, ascii, hc, hdigit, hseen, Bool.true_or, Bool.and_self]

theorem Alphabet.isBoundary_unicode {p c : Char} (hp : continues p) (hc : c.isUpper)
    (next : Option Char) : unicode.isBoundary p c next := by
  have hupper : Text.isUppercase c = true := by
    rw [Text.isUppercase_of_ascii (ascii_of_isUpper hc), hc]
  have hseen : (Text.isLowercase p || p.isDigit) = true := by
    rw [Text.isLowercase_of_ascii (ascii_of_continues hp)]
    exact hp
  simp only [isBoundary, unicode, hupper, hseen, Bool.true_or, Bool.and_self]

/-! ## Words -/

/-- Small letters and digits. -/
def Small (word : List Char) : Prop := ∀ c ∈ word, continues c

instance (word : List Char) : Decidable (Small word) :=
  decidable_of_iff (word.all continues) List.all_eq_true

def lowered (word : List Char) : List Char := word.map Char.toLower

/-- A capital, a small letter, and more small letters or digits. The beginning of such a word is
seen behind any other one. -/
inductive CamelWord : List Char → Prop where
  | intro {c d : Char} {rest : List Char} : c.isUpper → d.isLower → Small rest →
      CamelWord (c :: d :: rest)

theorem isWord_cons_iff {c : Char} {rest : List Char} :
    isWord (c :: rest) ↔ c.isUpper ∧ Small rest := by
  rw [isWord, Bool.and_eq_true, List.all_eq_true]
  rfl

theorem CamelWord.isWord {word : List Char} (h : CamelWord word) : isWord word := by
  cases h with
  | intro hc hd hrest =>
    refine isWord_cons_iff.2 ⟨hc, fun e he => ?_⟩
    rcases List.mem_cons.1 he with rfl | he
    · exact continues_of_isLower hd
    · exact hrest e he

theorem Small.ascii {word : List Char} (h : Small word) : ∀ c ∈ word, c.toNat < 0x80 :=
  fun c hc => ascii_of_continues (h c hc)

theorem Small.append {word other : List Char} (h : Small word) (h' : Small other) :
    Small (word ++ other) := by
  intro c hc
  rcases List.mem_append.1 hc with hc | hc
  · exact h c hc
  · exact h' c hc

theorem lowered_of_small {word : List Char} (h : Small word) : lowered word = word := by
  have hsame : ∀ c ∈ word, c.toLower = id c := fun c hc => toLower_of_continues (h c hc)
  rw [lowered, List.map_congr_left hsame, List.map_id]

theorem lower_of_small {word : List Char} (h : Small word) : Text.lower word = word := by
  rw [Text.lower_of_ascii h.ascii]
  exact lowered_of_small h

theorem lowered_of_isWord {c : Char} {rest : List Char} (h : isWord (c :: rest)) :
    lowered (c :: rest) = c.toLower :: rest := by
  rw [lowered, List.map_cons]
  exact congrArg _ (lowered_of_small (isWord_cons_iff.1 h).2)

theorem small_lowered {word : List Char} (h : isWord word) : Small (lowered word) := by
  cases word with
  | nil => cases h
  | cons c rest =>
    obtain ⟨hc, hrest⟩ := isWord_cons_iff.1 h
    rw [lowered_of_isWord h]
    intro d hd
    rcases List.mem_cons.1 hd with rfl | hd
    · exact continues_toLower_of_isUpper hc
    · exact hrest d hd

theorem letter_of_isWord {word : List Char} (h : isWord word) {c : Char} (hc : c ∈ word) :
    c.isUpper ∨ continues c := by
  cases word with
  | nil => cases h
  | cons first rest =>
    obtain ⟨hfirst, hrest⟩ := isWord_cons_iff.1 h
    rcases List.mem_cons.1 hc with rfl | hc
    · exact .inl hfirst
    · exact .inr (hrest c hc)

theorem ascii_of_isWord {word : List Char} (h : isWord word) : ∀ c ∈ word, c.toNat < 0x80 := by
  intro c hc
  rcases letter_of_isWord h hc with hupper | hcontinues
  · exact ascii_of_isUpper hupper
  · exact ascii_of_continues hcontinues

/-- The last character of a word of several letters is no capital. -/
theorem CamelWord.getLast?_continues {word : List Char} (h : CamelWord word) :
    ∃ p, word.getLast? = some p ∧ continues p := by
  cases h with
  | @intro c d rest hc hd hrest =>
    rw [List.getLast?_cons, List.getLast?_cons, Option.getD_some]
    refine ⟨_, rfl, ?_⟩
    cases hlast : rest.getLast? with
    | none => exact continues_of_isLower hd
    | some p => exact hrest p (List.mem_of_getLast? hlast)

/-! ## The last word -/

theorem getLast?_cons_eq_or (c : Char) (rest : List Char) :
    (c :: rest).getLast? = rest.getLast?.or (some c) := by
  rw [List.getLast?_cons]
  cases rest.getLast? <;> rfl

/-- The character before what follows, once another one has been read. -/
theorem getLast?_cons_or (c : Char) (rest : List Char) (prev : Option Char) :
    (c :: rest).getLast?.or prev = rest.getLast?.or (some c) := by
  rw [getLast?_cons_eq_or, Option.or_assoc, Option.some_or]

/-- Reading the front of a name leaves a split of what has been read. -/
theorem splitLastAfter_append_left (before word : List Char) (prev : Option Char)
    (front rest : List Char) :
    ∃ before' word', before'.reverse ++ word'.reverse = before.reverse ++ word.reverse ++ front ∧
      splitLastAfter before word prev (front ++ rest) =
        splitLastAfter before' word' (front.getLast?.or prev) rest := by
  induction front generalizing before word prev with
  | nil => exact ⟨before, word, by simp, rfl⟩
  | cons c front ih =>
    rw [getLast?_cons_or, List.cons_append, splitLastAfter]
    split
    · obtain ⟨before', word', hread, hsplit⟩ := ih (c :: word ++ before) [] (some c)
      exact ⟨before', word', by simp [hread], hsplit⟩
    · split
      · obtain ⟨before', word', hread, hsplit⟩ := ih (word ++ before) [c] (some c)
        exact ⟨before', word', by simp [hread], hsplit⟩
      · obtain ⟨before', word', hread, hsplit⟩ := ih before (c :: word) (some c)
        exact ⟨before', word', by simp [hread], hsplit⟩

theorem splitLastAfter_small (before word : List Char) (prev : Option Char) {rest : List Char}
    (h : Small rest) :
    splitLastAfter before word prev rest = (before.reverse, word.reverse ++ rest) := by
  induction rest generalizing word prev with
  | nil => simp [splitLastAfter]
  | cons c rest ih =>
    have hc := h c (List.mem_cons_self ..)
    have hnot : ¬ (prev.any fun p => Alphabet.unicode.isBoundary p c rest.head?) = true := by
      cases prev <;>
        simp [Alphabet.isBoundary, Alphabet.unicode, not_isUppercase_of_continues hc]
    rw [splitLastAfter, if_neg (ne_underscore_of_continues hc), if_neg hnot,
      ih _ _ fun d hd => h d (List.mem_cons_of_mem _ hd)]
    simp

theorem splitLast_small {word : List Char} (h : Small word) : splitLast word = ([], word) :=
  splitLastAfter_small [] [] none h

/-- What follows the last underscore is the last word. -/
theorem splitLast_underscore (front : List Char) {word : List Char} (h : Small word) :
    splitLast (front ++ '_' :: word) = (front ++ ['_'], word) := by
  obtain ⟨before, read, hread, hsplit⟩ :=
    splitLastAfter_append_left [] [] none front ('_' :: word)
  have hread : before.reverse ++ read.reverse = front := by simpa using hread
  rw [splitLast, hsplit, splitLastAfter, if_pos rfl, splitLastAfter_small _ _ _ h, ← hread]
  simp

/-- The last capital begins the last word, if it is not hidden behind another capital. -/
theorem splitLast_capital {front word : List Char} {p : Char} (hlast : front.getLast? = some p)
    (hp : continues p) (h : isWord word) : splitLast (front ++ word) = (front, word) := by
  cases word with
  | nil => cases h
  | cons c rest =>
    obtain ⟨hc, hrest⟩ := isWord_cons_iff.1 h
    obtain ⟨before, read, hread, hsplit⟩ := splitLastAfter_append_left [] [] none front (c :: rest)
    have hread : before.reverse ++ read.reverse = front := by simpa using hread
    have hbegins : (front.getLast?.or none).any
        (fun p => Alphabet.unicode.isBoundary p c rest.head?) = true := by
      rw [hlast]
      exact Alphabet.isBoundary_unicode hp hc _
    rw [splitLast, hsplit, splitLastAfter, if_neg (ne_underscore_of_isUpper hc), if_pos hbegins,
      splitLastAfter_small _ _ _ hrest, ← hread]
    simp

theorem splitLast_word {word : List Char} (h : isWord word) : splitLast word = ([], word) := by
  cases word with
  | nil => cases h
  | cons c rest =>
    obtain ⟨hc, hrest⟩ := isWord_cons_iff.1 h
    rw [splitLast, splitLastAfter, if_neg (ne_underscore_of_isUpper hc), if_neg (by simp),
      splitLastAfter_small _ _ _ hrest]
    rfl

/-! ## snake_case and CamelCase -/

def snake (words : List (List Char)) : List Char := ['_'].intercalate words

@[simp] theorem snake_singleton (word : List Char) : snake [word] = word :=
  List.intercalate_singleton

theorem snake_cons {word : List Char} {words : List (List Char)} (h : words ≠ []) :
    snake (word :: words) = word ++ '_' :: snake words := by
  cases words with
  | nil => exact absurd rfl h
  | cons next words =>
    rw [snake, List.intercalate_cons_cons, List.append_assoc]
    rfl

theorem snake_concat (front : List (List Char)) (last : List Char) :
    snake (front ++ [last]) = front.flatMap (· ++ ['_']) ++ last := by
  induction front with
  | nil => simp
  | cons word front ih =>
    rw [List.cons_append, snake_cons (by simp), ih, List.flatMap_cons]
    simp

theorem splitLast_snake (front : List (List Char)) {last : List Char} (h : Small last) :
    splitLast (snake (front ++ [last])) = (front.flatMap (· ++ ['_']), last) := by
  rw [snake_concat]
  rcases front.eq_nil_or_concat with rfl | ⟨front, word, rfl⟩
  · exact splitLast_small h
  · simpa using splitLast_underscore (front.flatMap (· ++ ['_']) ++ word) h

theorem splitLast_camel {front : List (List Char)} (hfront : ∀ word ∈ front, CamelWord word)
    {last : List Char} (h : isWord last) :
    splitLast ((front ++ [last]).flatten) = (front.flatten, last) := by
  rw [List.flatten_concat]
  rcases front.eq_nil_or_concat with rfl | ⟨front, word, rfl⟩
  · exact splitLast_word h
  · obtain ⟨p, hlast, hp⟩ := (hfront word (by simp)).getLast?_continues
    refine splitLast_capital (p := p) ?_ hp h
    rw [List.concat_eq_append, List.flatten_concat, List.getLast?_append, hlast]
    rfl

namespace Direction

/-- Inflecting a name in snake_case is inflecting its last word. -/
theorem inflect_snake (d : Direction) (front : List (List Char)) {last : List Char}
    (h : Small last) :
    d.inflect (snake (front ++ [last])) = snake (front ++ [d.inflectWord last]) := by
  rw [inflect, splitLast_snake front h, snake_concat]

/-- Inflecting a name in CamelCase is inflecting its last word. -/
theorem inflect_camel (d : Direction) {front : List (List Char)}
    (hfront : ∀ word ∈ front, CamelWord word) {last : List Char} (h : isWord last) :
    d.inflect ((front ++ [last]).flatten) = (front ++ [d.inflectWord last]).flatten := by
  rw [inflect, splitLast_camel hfront h, List.flatten_concat]

end Direction

/-! ## From the one to the other -/

theorem separateAfter_small (prev : Option Char) {word : List Char} (h : Small word)
    (rest : List Char) :
    separateAfter prev (word ++ rest) = word ++ separateAfter (word.getLast?.or prev) rest := by
  induction word generalizing prev with
  | nil => rfl
  | cons c word ih =>
    have hc := h c (List.mem_cons_self ..)
    have hnot : ¬ (prev.any fun p => Alphabet.ascii.isBoundary p c (word ++ rest).head?) = true := by
      cases prev <;>
        simp [Alphabet.isBoundary, Alphabet.ascii, isUpper_eq_false_of_continues hc]
    rw [List.cons_append, separateAfter, if_neg hnot, getLast?_cons_or,
      ih (some c) fun d hd => h d (List.mem_cons_of_mem _ hd)]
    rfl

/-- A word behind a small letter or a digit is put behind an underscore. -/
theorem separateAfter_word {p : Char} (hp : continues p) {word : List Char} (h : isWord word)
    (rest : List Char) :
    separateAfter (some p) (word ++ rest) = '_' :: word ++ separateAfter word.getLast? rest := by
  cases word with
  | nil => cases h
  | cons c word =>
    obtain ⟨hc, hword⟩ := isWord_cons_iff.1 h
    have hbegins : ((some p).any
        fun p => Alphabet.ascii.isBoundary p c (word ++ rest).head?) = true :=
      Alphabet.isBoundary_ascii hp hc _
    rw [List.cons_append, separateAfter, if_pos hbegins, separateAfter_small _ hword,
      getLast?_cons_eq_or]
    rfl

theorem separateAfter_camel {p : Char} (hp : continues p) {front : List (List Char)}
    (hfront : ∀ word ∈ front, CamelWord word) {last : List Char} (h : isWord last) :
    separateAfter (some p) ((front ++ [last]).flatten) = '_' :: snake (front ++ [last]) := by
  induction front generalizing p with
  | nil =>
    have hword := separateAfter_word hp h []
    rw [List.append_nil, separateAfter, List.append_nil] at hword
    simpa using hword
  | cons word front ih =>
    have hword := hfront word (List.mem_cons_self ..)
    obtain ⟨q, hlast, hq⟩ := hword.getLast?_continues
    rw [List.cons_append, List.flatten_cons, separateAfter_word hp hword.isWord, hlast,
      ih hq fun other hother => hfront other (List.mem_cons_of_mem _ hother),
      snake_cons (by simp)]
    rfl

theorem separateAfter_first {word : List Char} (h : isWord word) (rest : List Char) :
    separateAfter none (word ++ rest) = word ++ separateAfter word.getLast? rest := by
  cases word with
  | nil => cases h
  | cons c word =>
    rw [List.cons_append, separateAfter, separateAfter_small _ (isWord_cons_iff.1 h).2,
      getLast?_cons_eq_or]
    rfl

/-- Underscores are put between words whose beginnings are all seen. -/
theorem separate_camel {front : List (List Char)} (hfront : ∀ word ∈ front, CamelWord word)
    {last : List Char} (h : isWord last) :
    separate ((front ++ [last]).flatten) = snake (front ++ [last]) := by
  cases front with
  | nil =>
    have hword := separateAfter_first h []
    rw [List.append_nil, separateAfter, List.append_nil] at hword
    simpa [separate] using hword
  | cons word front =>
    have hword := hfront word (List.mem_cons_self ..)
    obtain ⟨p, hlast, hp⟩ := hword.getLast?_continues
    have hrest : ∀ other ∈ front, CamelWord other :=
      fun other hother => hfront other (List.mem_cons_of_mem _ hother)
    rw [separate, List.cons_append, List.flatten_cons, separateAfter_first hword.isWord, hlast,
      separateAfter_camel hp hrest h, snake_cons (by simp)]

theorem mem_snake {words : List (List Char)} {c : Char} (h : c ∈ snake words) :
    c = '_' ∨ ∃ word ∈ words, c ∈ word := by
  rcases words.eq_nil_or_concat with rfl | ⟨front, last, rfl⟩
  · cases h
  · rw [List.concat_eq_append, snake_concat, List.mem_append, List.mem_flatMap] at h
    rcases h with ⟨word, hword, hc⟩ | hc
    · rcases List.mem_append.1 hc with hc | hc
      · exact .inr ⟨word, by simp [hword], hc⟩
      · exact .inl (List.mem_singleton.1 hc)
    · exact .inr ⟨last, by simp, hc⟩

theorem map_snake {f : Char → Char} (hf : f '_' = '_') (words : List (List Char)) :
    (snake words).map f = snake (words.map (·.map f)) := by
  induction words with
  | nil => rfl
  | cons word words ih =>
    cases words with
    | nil => simp
    | cons next words =>
      rw [snake_cons (List.cons_ne_nil _ _), List.map_append, List.map_cons, ih, hf]
      exact (snake_cons (List.cons_ne_nil _ _)).symm

/-- The words of a name in CamelCase are the ones of its form in snake_case, in small letters. -/
theorem underscore_camel {front : List (List Char)} (hfront : ∀ word ∈ front, CamelWord word)
    {last : List Char} (h : isWord last) :
    underscore (String.ofList ((front ++ [last]).flatten)) =
      String.ofList (snake ((front ++ [last]).map lowered)) := by
  -- The characters are in ASCII and none is a hyphen, so beside the joints only capitals change.
  have hchars : ∀ c ∈ snake (front ++ [last]), c.toNat < 0x80 ∧ unhyphened c = id c := by
    intro c hc
    rcases mem_snake hc with rfl | ⟨word, hword, hc⟩
    · decide
    · have hisWord : isWord word := by
        rcases List.mem_append.1 hword with hword | hword
        · exact (hfront word hword).isWord
        · rwa [List.mem_singleton.1 hword]
      refine ⟨ascii_of_isWord hisWord c hc, if_neg ?_⟩
      rintro rfl
      rcases letter_of_isWord hisWord hc with hupper | hcontinues
      · exact absurd hupper (by decide)
      · exact absurd hcontinues (by decide)
  have hplain : (snake (front ++ [last])).map unhyphened = snake (front ++ [last]) := by
    rw [List.map_congr_left fun c hc => (hchars c hc).2, List.map_id]
  rw [underscore, String.toList_ofList, separate_camel hfront h, hplain,
    Text.lower_of_ascii fun c hc => (hchars c hc).1, map_snake (by decide)]
  rfl

/-- The words of a name in snake_case are joined by their capitals. -/
theorem camelize_snake {words : List (List Char)} (h : ∀ word ∈ words, Small word) :
    camelize (String.ofList (snake words)) = String.ofList (words.flatMap capitalize) := by
  rw [camelize, String.toList_ofList]
  cases words with
  | nil => rfl
  | cons word words =>
    have hnone : ∀ word' ∈ word :: words, '_' ∉ word' :=
      fun word' hword hmem => ne_underscore_of_continues (h word' hword '_' hmem) rfl
    rw [snake, List.splitOn_intercalate '_' hnone (List.cons_ne_nil _ _)]

end NamedQuery.Inflection
