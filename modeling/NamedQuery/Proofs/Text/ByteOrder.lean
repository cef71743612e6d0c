import Mathlib.Tactic.SplitIfs

/-! # The order of texts and of their bytes

Texts are ordered by their characters. In UTF-8 the encoding of a greater character has a greater byte
where the two encodings first differ (`encoded_lt_of_lt`), so this is also the order of the bytes
(`bytes_lt_iff`, `bytes_le_iff`). -/

namespace NamedQuery.Text

def bytes (text : String) : List UInt8 :=
  text.toUTF8.data.toList

theorem bytes_eq_flatMap (text : String) :
    bytes text = text.toList.flatMap String.utf8EncodeChar := by
  rw [bytes, String.toUTF8_eq_toByteArray, ← String.utf8Encode_toList, List.utf8Encode,
    List.toList_data_toByteArray]

theorem byte_lt_iff {m n : Nat} (hm : m < 256) (hn : n < 256) :
    UInt8.ofNat m < UInt8.ofNat n ↔ m < n := by
  rw [UInt8.lt_iff_toNat_lt, UInt8.toNat_ofNat_of_lt' hm, UInt8.toNat_ofNat_of_lt' hn]

theorem byte_eq_iff {m n : Nat} (hm : m < 256) (hn : n < 256) :
    UInt8.ofNat m = UInt8.ofNat n ↔ m = n := by
  rw [← UInt8.toNat_inj, UInt8.toNat_ofNat_of_lt' hm, UInt8.toNat_ofNat_of_lt' hn]

/-- The encodings of two characters are in their order, whatever follows them. -/
theorem encoded_lt_of_lt {c d : Char} (h : c < d) (rest rest' : List UInt8) :
    String.utf8EncodeChar c ++ rest < String.utf8EncodeChar d ++ rest' := by
  have hvalue : c.val.toNat < d.val.toNat := UInt32.lt_iff_toNat_lt.1 h
  have hbound : d.val.toNat < 0x110000 := by
    have hvalid := d.valid
    simp only [UInt32.isValidChar, Nat.isValidChar] at hvalid
    omega
  unfold String.utf8EncodeChar
  generalize c.val.toNat = m at hvalue
  generalize d.val.toNat = n at hvalue hbound
  have hm : m / 262144 % 8 = m / 262144 := by omega
  have hn : n / 262144 % 8 = n / 262144 := by omega
  -- The first group of six bits in which the two numbers differ.
  have hfirst : m / 262144 < n / 262144 ∨
      m / 262144 = n / 262144 ∧ m / 4096 % 64 < n / 4096 % 64 ∨
      m / 4096 = n / 4096 ∧ m / 64 % 64 < n / 64 % 64 ∨ m / 64 = n / 64 ∧ m % 64 < n % 64 := by
    omega
  dsimp only
  -- One case for each pair of lengths: a shorter encoding has a smaller first byte.
  split_ifs <;>
    simp (disch := omega) only [List.cons_append, List.cons_lt_cons_iff, byte_lt_iff, byte_eq_iff] <;>
    omega

theorem flatMap_encoded_lt_of_lt {chars chars' : List Char} (h : chars < chars') :
    chars.flatMap String.utf8EncodeChar < chars'.flatMap String.utf8EncodeChar := by
  -- The first characters that differ decide, whatever bytes come after theirs.
  induction chars generalizing chars' with
  | nil =>
    cases chars' with
    | nil => exact absurd h (List.lt_irrefl _)
    | cons d chars' =>
      rw [List.flatMap_cons, List.flatMap_nil]
      obtain ⟨byte, rest, hbytes⟩ := List.exists_cons_of_ne_nil (String.utf8EncodeChar_ne_nil (c := d))
      rw [hbytes]
      exact List.nil_lt_cons ..
  | cons c chars ih =>
    cases chars' with
    | nil => exact absurd h (List.not_lt_nil _)
    | cons d chars' =>
      rw [List.flatMap_cons, List.flatMap_cons]
      rcases List.cons_lt_cons_iff.1 h with hlt | ⟨rfl, hrest⟩
      · exact encoded_lt_of_lt hlt _ _
      · exact List.append_left_lt (ih hrest)

/-- A text is less than another one just if its bytes are. -/
theorem bytes_lt_iff {text other : String} : bytes text < bytes other ↔ text < other := by
  rw [bytes_eq_flatMap, bytes_eq_flatMap]
  show _ ↔ text.toList < other.toList
  refine ⟨fun h => ?_, flatMap_encoded_lt_of_lt⟩
  rcases Std.lt_trichotomy text.toList other.toList with hlt | heq | hgt
  · exact hlt
  · rw [heq] at h
    exact absurd h (List.lt_irrefl _)
  · exact absurd h (List.lt_asymm (flatMap_encoded_lt_of_lt hgt))

theorem bytes_le_iff {text other : String} : bytes text ≤ bytes other ↔ text ≤ other :=
  not_congr bytes_lt_iff

end NamedQuery.Text
