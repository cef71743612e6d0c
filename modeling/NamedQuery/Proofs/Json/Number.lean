import Mathlib.Data.List.TakeWhile
import NamedQuery.Json.Document
import NamedQuery.Json.Printer

/-! # Numbers that read back

An integer of at most 64 bits is read from its decimal text as itself
(`Number.readsBack_integer`). The same does not hold of all floating-point numbers, since reading
may miss the nearest one by a step. -/

namespace NamedQuery.Json

open Text (digitValue takeDigits)

/-- The text of a number is read as this number. -/
def Number.ReadsBack (n : Number) : Prop :=
  ofText? (Json.number n).text = some (.number n)

theorem eq_number_of_value? {document : Document} {depth : Nat} {n : Number}
    (h : document.value? depth = some (.number n)) :
    ∃ literal, document = .number literal ∧ number? literal = some n := by
  cases document with
  | number literal =>
    obtain ⟨m, hm, heq⟩ := Option.map_eq_some_iff.1 h
    cases heq
    exact ⟨literal, rfl, hm⟩
  | null | bool => cases h
  | string text => cases text <;> cases h
  | array items =>
    cases depth with
    | zero => cases h
    | succ depth =>
      obtain ⟨_, _, heq⟩ := Option.map_eq_some_iff.1 h
      cases heq
  | object entries =>
    cases depth with
    | zero => cases h
    | succ depth =>
      obtain ⟨_, _, heq⟩ := Option.map_eq_some_iff.1 h
      cases heq

theorem Number.readsBack_iff {n : Number} :
    n.ReadsBack ↔ ∃ literal, Document.ofText? n.text.toList = some (.number literal) ∧
      number? literal = some n := by
  unfold Number.ReadsBack ofText? Json.text
  rw [String.toList_ofList, chars, Option.bind_eq_bind, Option.bind_eq_some_iff]
  constructor
  · rintro ⟨document, hdocument, hvalue⟩
    obtain ⟨literal, rfl, hn⟩ := eq_number_of_value? hvalue
    exact ⟨literal, hdocument, hn⟩
  · rintro ⟨literal, hliteral, hn⟩
    exact ⟨.number literal, hliteral, by rw [Document.value?, hn, Option.map_some]⟩

/-! ## Bare words -/

/-- A character that a bare word may have. -/
def IsBare (c : Char) : Prop :=
  isSpace c = false ∧ c ≠ '"' ∧ punctuation? c = none

theorem scan_bare {cs : List Char} (h : ∀ c ∈ cs, IsBare c) (word : List Char) :
    scan (.bare word) cs = (bareToken? (word.reverse ++ cs)).map ([·]) := by
  induction cs generalizing word with
  | nil => rw [scan, List.append_nil]
  | cons c cs ih =>
    obtain ⟨hspace, hquote, hmark⟩ := h c (List.mem_cons_self ..)
    have hrest := ih (fun d hd => h d (List.mem_cons_of_mem _ hd)) (c :: word)
    simpa [scan, hspace, hquote, hmark] using hrest

theorem tokens?_bare {c : Char} {cs : List Char} (h : ∀ d ∈ c :: cs, IsBare d) :
    tokens? (c :: cs) = (bareToken? (c :: cs)).map ([·]) := by
  obtain ⟨hspace, hquote, hmark⟩ := h c (List.mem_cons_self ..)
  have hrest := scan_bare (fun d hd => h d (List.mem_cons_of_mem _ hd)) [c]
  simpa [tokens?, scan, hspace, hquote, hmark] using hrest

def IsDecimal (c : Char) : Prop :=
  c = '-' ∨ c.isDigit

theorem IsDecimal.ne {c d : Char} (h : IsDecimal c) (hdigit : d.isDigit = false) (hsign : d ≠ '-') :
    c ≠ d := by
  rintro rfl
  rcases h with h | h
  · exact hsign h
  · rw [hdigit] at h
    cases h

theorem IsDecimal.isBare {c : Char} (h : IsDecimal c) : IsBare c := by
  have hothers : [' ', '\n', '\t', '\r', '"', '[', ']', '{', '}', ',', ':'].all fun d =>
      !d.isDigit && d != '-' := rfl
  have hne : ∀ d ∈ [' ', '\n', '\t', '\r', '"', '[', ']', '{', '}', ',', ':'], c ≠ d := by
    intro d hd
    have hother := List.all_eq_true.1 hothers d hd
    rw [Bool.and_eq_true, Bool.not_eq_true', bne_iff_ne] at hother
    exact h.ne hother.1 hother.2
  simp only [List.mem_cons, List.not_mem_nil, or_false, forall_eq_or_imp, forall_eq] at hne
  simp [IsBare, isSpace, punctuation?, hne]

theorem ofText?_decimal {c : Char} {cs : List Char} (h : ∀ d ∈ c :: cs, IsDecimal d) :
    Document.ofText? (c :: cs) = (literal? (c :: cs)).map .number := by
  have hc := h c (List.mem_cons_self ..)
  have hword : bareToken? (c :: cs) = (literal? (c :: cs)).map .number := by
    have hn : c ≠ 'n' := hc.ne rfl (by decide)
    have ht : c ≠ 't' := hc.ne rfl (by decide)
    have hf : c ≠ 'f' := hc.ne rfl (by decide)
    simp [bareToken?, hn, ht, hf]
  unfold Document.ofText?
  rw [tokens?_bare fun d hd => (h d hd).isBare, hword]
  cases literal? (c :: cs) <;> rfl

/-! ## Decimal digits -/

theorem ofDigits_toDigits (m : Nat) : Numeric.ofDigits ((Nat.toDigits 10 m).map digitValue) = m := by
  rw [Numeric.ofDigits, List.foldl_map]
  calc (Nat.toDigits 10 m).foldl (fun n c => n * 10 + digitValue c) 0
      = Nat.ofDigitChars 10 (Nat.toDigits 10 m) 0 := by
        rw [Nat.ofDigitChars_eq_foldl]
        simp only [digitValue, Nat.mul_comm]
        rfl
    _ = m := Nat.ofDigitChars_ten_toDigits

theorem head_toDigits {m : Nat} (h : 0 < m) :
    ∃ c cs, Nat.toDigits 10 m = c :: cs ∧ digitValue c ≠ 0 := by
  induction m using Nat.strongRecOn with
  | ind m ih =>
    by_cases hsmall : m < 10
    · refine ⟨m.digitChar, [], Nat.toDigits_of_lt_base hsmall, ?_⟩
      rw [digitValue, Nat.toNat_digitChar_of_lt_ten hsmall]
      omega
    · obtain ⟨c, cs, hdigits, hc⟩ := ih (m / 10) (by omega) (by omega)
      refine ⟨c, cs ++ [(m % 10).digitChar], ?_, hc⟩
      rw [Nat.toDigits_of_base_le (by decide) (by omega), hdigits, List.cons_append]

/-- Decimal digits have no zero in front of others. -/
theorem isWhole_toDigits (m : Nat) : isWhole ((Nat.toDigits 10 m).map digitValue) = true := by
  rcases Nat.eq_zero_or_pos m with rfl | hpos
  · decide
  · obtain ⟨c, cs, hdigits, hc⟩ := head_toDigits hpos
    rw [hdigits, List.map_cons]
    unfold isWhole
    split
    · next heq => cases heq
    · next heq => exact absurd (List.cons.inj heq).1 hc
    · rfl

theorem isDigit_of_mem_toDigits {m : Nat} {c : Char} (h : c ∈ Nat.toDigits 10 m) : c.isDigit :=
  Nat.isDigit_of_mem_toDigits (by decide) (by decide) h

theorem unsigned?_toDigits (negative : Bool) (m : Nat) :
    unsigned? negative (Nat.toDigits 10 m) =
      some ⟨negative, (Nat.toDigits 10 m).map digitValue, none, none⟩ := by
  have hdigits : ∀ c ∈ Nat.toDigits 10 m, c.isDigit := fun c => isDigit_of_mem_toDigits
  have htake : takeDigits (Nat.toDigits 10 m) = ((Nat.toDigits 10 m).map digitValue, []) := by
    rw [takeDigits, List.takeWhile_eq_self_iff.2 hdigits, List.dropWhile_eq_nil_iff.2 hdigits]
  simp [unsigned?, htake, isWhole_toDigits, exponentPart?]

/-! ## Integers -/

theorem ofText?_toDigits (m : Nat) :
    Document.ofText? (Nat.toDigits 10 m) =
      some (.number ⟨false, (Nat.toDigits 10 m).map digitValue, none, none⟩) := by
  rw [← Option.map_some, ← unsigned?_toDigits]
  cases hdigits : Nat.toDigits 10 m with
  | nil => exact absurd hdigits Nat.toDigits_ne_nil
  | cons c cs =>
    have hdecimal : ∀ d ∈ c :: cs, d.isDigit := fun d hd => isDigit_of_mem_toDigits (hdigits ▸ hd)
    have hliteral : literal? (c :: cs) = unsigned? false (c :: cs) := by
      unfold literal?
      split
      · next heq =>
        have hsign := hdecimal c (List.mem_cons_self ..)
        rw [(List.cons.inj heq).1] at hsign
        cases hsign
      · rfl
    rw [ofText?_decimal fun d hd => .inr (hdecimal d hd), hliteral]

theorem ofText?_minus_toDigits (m : Nat) :
    Document.ofText? ('-' :: Nat.toDigits 10 m) =
      some (.number ⟨true, (Nat.toDigits 10 m).map digitValue, none, none⟩) := by
  have hdecimal : ∀ d ∈ '-' :: Nat.toDigits 10 m, IsDecimal d := by
    rintro d (_ | ⟨_, hd⟩)
    · exact .inl rfl
    · exact .inr (isDigit_of_mem_toDigits hd)
  rw [ofText?_decimal hdecimal, literal?, unsigned?_toDigits, Option.map_some]

/-- A whole literal other than a zero with a sign is the integer that it writes. -/
theorem number?_whole {negative : Bool} {digits : List Nat} {n : Int} (h : IsWord n)
    (hvalue : (if negative then -(Numeric.ofDigits digits : Int) else Numeric.ofDigits digits) = n)
    (hzero : ¬(negative ∧ n = 0)) :
    number? ⟨negative, digits, none, none⟩ = some (.integer n h) := by
  subst hvalue
  rw [number?]
  exact dif_pos ⟨rfl, rfl, hzero, h⟩

theorem Number.readsBack_integer (n : Int) (h : IsWord n) : (Number.integer n h).ReadsBack := by
  rw [Number.readsBack_iff, Number.text, Int.toString_eq_repr, Int.repr_eq_if]
  split
  · next hsign =>
    rw [Nat.toList_repr]
    refine ⟨_, ofText?_toDigits n.toNat, number?_whole h ?_ fun hzero => absurd hzero.1 Bool.false_ne_true⟩
    rw [ofDigits_toDigits]
    exact Int.toNat_of_nonneg hsign
  · next hsign =>
    rw [String.toList_append, Nat.toList_repr]
    -- A negative integer is not zero, so its sign does not make it a floating-point number.
    refine ⟨_, ofText?_minus_toDigits (-n).toNat, number?_whole h ?_ fun hzero => ?_⟩
    · rw [ofDigits_toDigits, if_pos rfl]
      omega
    · exact hsign (Int.le_of_eq hzero.2.symm)

end NamedQuery.Json
