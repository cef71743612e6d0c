/-! # Words of an identifier

An identifier is a sequence of words; a word is a capital of ASCII and the small letters and digits
after it. `words?` finds them, and `words?_eq_some_iff` says that it finds exactly the sequences
that spell the identifier. -/

namespace NamedQuery.Identifier

/-- The characters that a word goes on with. -/
def continues (c : Char) : Bool :=
  c.isLower || c.isDigit

/-- A capital, followed by small letters and digits. -/
def isWord : List Char → Bool
  | [] => false
  | c :: rest => c.isUpper && rest.all continues

/-- The words of a text, and what stands before the first capital. -/
def scanWords : List Char → Option (List Char × List (List Char))
  | [] => some ([], [])
  | c :: rest =>
    match scanWords rest with
    | none => none
    | some (front, words) =>
      if c.isUpper then some ([], (c :: front) :: words)
      else if continues c then some (c :: front, words)
      else none

/-- The words that a text consists of; there has to be at least one. -/
def words? (text : List Char) : Option (List (List Char)) :=
  match scanWords text with
  | some ([], word :: words) => some (word :: words)
  | _ => none

/-! ## What `words?` finds -/

theorem scanWords_sound {text front : List Char} {words : List (List Char)}
    (h : scanWords text = some (front, words)) :
    text = front ++ words.flatten ∧ front.all continues ∧ ∀ w ∈ words, isWord w := by
  induction text generalizing front words with
  | nil =>
    obtain ⟨rfl, rfl⟩ : [] = front ∧ [] = words := by simpa [scanWords] using h
    simp
  | cons c rest ih =>
    simp only [scanWords] at h
    split at h
    · simp at h
    · next front' words' hrest =>
      obtain ⟨htext, hfront, hwords⟩ := ih hrest
      split at h
      · next hc =>
        obtain ⟨rfl, rfl⟩ : [] = front ∧ (c :: front') :: words' = words := by simpa using h
        refine ⟨by simp [htext], rfl, fun w hw => ?_⟩
        rcases List.mem_cons.1 hw with rfl | hw
        · simp [isWord, hc, hfront]
        · exact hwords w hw
      · split at h
        · next hc =>
          obtain ⟨rfl, rfl⟩ : c :: front' = front ∧ words' = words := by simpa using h
          exact ⟨by simp [htext], by simp [hc, hfront], hwords⟩
        · simp at h

theorem isUpper_iff {c : Char} : c.isUpper ↔ 0x41 ≤ c.toNat ∧ c.toNat ≤ 0x5A := by
  have h : c.isUpper = decide (c.val ≥ 'A'.val ∧ c.val ≤ 'Z'.val) := rfl
  simp only [h, decide_eq_true_eq, ge_iff_le, UInt32.le_iff_toNat_le]
  rfl

theorem isLower_iff {c : Char} : c.isLower ↔ 0x61 ≤ c.toNat ∧ c.toNat ≤ 0x7A := by
  have h : c.isLower = (decide (c.val ≥ 'a'.val) && decide (c.val ≤ 'z'.val)) := rfl
  simp only [h, Bool.and_eq_true, decide_eq_true_eq, ge_iff_le, UInt32.le_iff_toNat_le]
  rfl

theorem isDigit_iff {c : Char} : c.isDigit ↔ 0x30 ≤ c.toNat ∧ c.toNat ≤ 0x39 := by
  have h : c.isDigit = (decide (c.val ≥ '0'.val) && decide (c.val ≤ '9'.val)) := rfl
  simp only [h, Bool.and_eq_true, decide_eq_true_eq, ge_iff_le, UInt32.le_iff_toNat_le]
  rfl

theorem isUpper_eq_false_of_continues {c : Char} (h : continues c) : c.isUpper = false := by
  rw [continues, Bool.or_eq_true, isLower_iff, isDigit_iff] at h
  rw [← Bool.not_eq_true, isUpper_iff]
  omega

theorem scanWords_continues {front : List Char} (hfront : front.all continues) {rest : List Char}
    {words : List (List Char)} (h : scanWords rest = some ([], words)) :
    scanWords (front ++ rest) = some (front, words) := by
  induction front with
  | nil => exact h
  | cons c front ih =>
    simp only [List.all_cons, Bool.and_eq_true] at hfront
    simp [scanWords, ih hfront.2, isUpper_eq_false_of_continues hfront.1, hfront.1]

theorem scanWords_flatten {words : List (List Char)} (h : ∀ w ∈ words, isWord w) :
    scanWords words.flatten = some ([], words) := by
  induction words with
  | nil => rfl
  | cons w words ih =>
    have hw := h w (by simp)
    have hwords := ih fun v hv => h v (by simp [hv])
    cases w with
    | nil => simp [isWord] at hw
    | cons c tail =>
      simp only [isWord, Bool.and_eq_true] at hw
      simp [scanWords, scanWords_continues hw.2 hwords, hw.1]

/-- `words?` finds exactly the non-empty sequences of words that spell the text. -/
theorem words?_eq_some_iff {text : List Char} {words : List (List Char)} :
    words? text = some words ↔ words ≠ [] ∧ (∀ w ∈ words, isWord w) ∧ text = words.flatten := by
  constructor
  · intro h
    simp only [words?] at h
    split at h
    · next word rest hscan =>
      obtain rfl : word :: rest = words := by simpa using h
      obtain ⟨htext, _, hwords⟩ := scanWords_sound hscan
      exact ⟨by simp, hwords, by simpa using htext⟩
    · simp at h
  · rintro ⟨hne, hwords, rfl⟩
    cases words with
    | nil => exact absurd rfl hne
    | cons word rest => rw [words?, scanWords_flatten hwords]

end NamedQuery.Identifier
