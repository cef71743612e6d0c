import Mathlib.Algebra.GroupWithZero.Nat
import NamedQuery.Json.Basic

/-! # Integers and their nearest numbers

Below `2 ^ 53` every integer is a floating-point number, and no other integer is rounded to it. From
there on the numbers lie `2 ^ s` apart, and an integer `2 ^ s * q + r` between two of them is rounded to
the place of `q` or of `q + 1` (`nearestRank_grid`). So an integer is rounded as one of its neighbours is
(`exists_neighbour`), unless it is itself a number with an odd place and its neighbours lie in the middle
between two numbers, which happens only below `2 ^ 54`. The integers that share their nearest number with no
other one are called `Alone`. -/

namespace NamedQuery.Numeric

/-! ## Binades -/

theorem log2_eq_of_bounds {n k : Nat} (hle : 2 ^ k ≤ n) (hlt : n < 2 ^ (k + 1)) : n.log2 = k :=
  (Nat.log2_eq_iff (Nat.ne_of_gt (Nat.lt_of_lt_of_le (Nat.two_pow_pos k) hle))).2 ⟨hle, hlt⟩

theorem roundToEven_one (n : Nat) : roundToEven n 1 = n := by
  simp [roundToEven, Nat.mod_one]

theorem nearestRank_of_pos {n : Nat} (h : n ≠ 0) :
    nearestRank n 1 = (n.log2 + 1022) * block +
      if n.log2 ≤ 52 then n * 2 ^ (52 - n.log2) else roundToEven n (2 ^ (n.log2 - 52)) := by
  rw [nearestRank, if_neg (by omega)]
  simp only [Nat.div_one, roundToEven_one, Nat.shiftLeft_eq, Nat.one_mul]

theorem nearestRank_zero : nearestRank 0 1 = 0 := by
  decide

/-- A rounded quotient lies at the quotient or one above it. -/
theorem roundToEven_mem (num den : Nat) :
    roundToEven num den = num / den ∨ roundToEven num den = num / den + 1 := by
  unfold roundToEven
  simp only []
  split
  · exact .inl rfl
  · split
    · exact .inr rfl
    · omega

/-- The integers of one binade are rounded within it, or to the beginning of the next. -/
theorem nearestRank_bounds {n : Nat} (h : n ≠ 0) :
    (n.log2 + 1023) * block ≤ nearestRank n 1 ∧ nearestRank n 1 ≤ (n.log2 + 1024) * block ∧
      (n.log2 ≤ 52 → nearestRank n 1 < (n.log2 + 1024) * block) := by
  have hle : 2 ^ n.log2 ≤ n := Nat.log2_self_le h
  have hlt : n < 2 ^ (n.log2 + 1) := Nat.lt_log2_self
  rw [nearestRank_of_pos h]
  -- Scaled to 53 binary digits `n` lies between `2 ^ 52` and `2 ^ 53`. It is rounded only if digits are
  -- cut off, and then the upper end can be reached.
  by_cases hsmall : n.log2 ≤ 52
  · rw [if_pos hsmall]
    have hlow : 2 ^ 52 ≤ n * 2 ^ (52 - n.log2) := by
      calc 2 ^ 52 = 2 ^ n.log2 * 2 ^ (52 - n.log2) := by rw [← Nat.pow_add]; congr 1; omega
        _ ≤ n * 2 ^ (52 - n.log2) := Nat.mul_le_mul_right _ hle
    have hhigh : n * 2 ^ (52 - n.log2) < 2 ^ 53 := by
      calc n * 2 ^ (52 - n.log2) < 2 ^ (n.log2 + 1) * 2 ^ (52 - n.log2) :=
            Nat.mul_lt_mul_of_pos_right hlt (Nat.two_pow_pos _)
        _ = 2 ^ 53 := by rw [← Nat.pow_add]; congr 1; omega
    unfold block
    omega
  · rw [if_neg hsmall]
    have hdiv : 2 ^ 52 ≤ n / 2 ^ (n.log2 - 52) := by
      rw [Nat.le_div_iff_mul_le (Nat.two_pow_pos _), ← Nat.pow_add]
      calc 2 ^ (52 + (n.log2 - 52)) = 2 ^ n.log2 := by congr 1; omega
        _ ≤ n := hle
    have hdiv' : n / 2 ^ (n.log2 - 52) < 2 ^ 53 := by
      rw [Nat.div_lt_iff_lt_mul (Nat.two_pow_pos _), ← Nat.pow_add]
      calc n < 2 ^ (n.log2 + 1) := hlt
        _ = 2 ^ (53 + (n.log2 - 52)) := by congr 1; omega
    have hround := roundToEven_mem n (2 ^ (n.log2 - 52))
    unfold block
    omega

/-! ## Integers of their own -/

/-- An integer below `2 ^ 53` shares its nearest number with no other one. -/
theorem eq_of_nearestRank_eq_of_lt {m n : Nat} (hn : n < 2 ^ 53)
    (h : nearestRank m 1 = nearestRank n 1) : m = n := by
  by_cases hm0 : m = 0 <;> by_cases hn0 : n = 0
  · rw [hm0, hn0]
  · have hbounds := nearestRank_bounds hn0
    rw [hm0, nearestRank_zero] at h
    unfold block at hbounds
    omega
  · have hbounds := nearestRank_bounds hm0
    rw [hn0, nearestRank_zero] at h
    unfold block at hbounds
    omega
  · have hsmall : n.log2 ≤ 52 := Nat.le_of_lt_succ ((Nat.log2_lt hn0).2 hn)
    obtain ⟨hmlow, -, hmhigh⟩ := nearestRank_bounds hm0
    obtain ⟨hnlow, -, hnhigh⟩ := nearestRank_bounds hn0
    -- Equal ranks lie in one block, so `m` has as many digits as `n` and is scaled by the same power.
    have hlog : m.log2 = n.log2 := by
      unfold block at *
      omega
    rw [nearestRank_of_pos hm0, nearestRank_of_pos hn0, hlog, if_pos hsmall, if_pos hsmall] at h
    exact Nat.eq_of_mul_eq_mul_right (Nat.two_pow_pos _) (Nat.add_left_cancel h)

/-- An integer between `2 ^ 53` and `2 ^ 54` that is rounded to an odd place is the only one there. -/
theorem eq_of_nearestRank_eq_of_odd {m n : Nat} (hlow : 2 ^ 53 ≤ n) (hhigh : n < 2 ^ 54)
    (hodd : n % 4 = 2) (h : nearestRank m 1 = nearestRank n 1) : m = n := by
  have hn0 : n ≠ 0 := by omega
  have hrank : nearestRank n 1 = 1075 * block + n / 2 := by
    rw [nearestRank_of_pos hn0, log2_eq_of_bounds hlow hhigh, if_neg (by decide : ¬ 53 ≤ 52)]
    show 1075 * block + roundToEven n 2 = _
    rw [roundToEven, if_pos (by omega)]
  have hm0 : m ≠ 0 := by
    rintro rfl
    rw [nearestRank_zero] at h
    unfold block at hrank
    omega
  have hbounds := nearestRank_bounds hm0
  -- The place is odd, so it is not where a binade begins, and `m` has to lie in this one.
  have hlog : m.log2 = 53 := by
    unfold block at *
    omega
  rw [hrank, nearestRank_of_pos hm0, hlog, if_neg (by decide : ¬ 53 ≤ 52)] at h
  have hround : roundToEven m 2 = n / 2 := Nat.add_left_cancel h
  unfold roundToEven at hround
  simp only [] at hround
  split at hround
  · omega
  · split at hround <;> omega

/-! ## Integers between the numbers -/

section Grid

variable {s q r : Nat} (hlow : 2 ^ 52 ≤ q) (hhigh : q < 2 ^ 53) (hr : r < 2 ^ s)
include hlow hhigh hr

theorem log2_grid : (2 ^ s * q + r).log2 = 52 + s := by
  apply log2_eq_of_bounds
  · calc 2 ^ (52 + s) = 2 ^ s * 2 ^ 52 := by rw [Nat.add_comm, Nat.pow_add]
      _ ≤ 2 ^ s * q := Nat.mul_le_mul_left _ hlow
      _ ≤ 2 ^ s * q + r := Nat.le_add_right ..
  · calc 2 ^ s * q + r < 2 ^ s * q + 2 ^ s := Nat.add_lt_add_left hr _
      _ = 2 ^ s * (q + 1) := rfl
      _ ≤ 2 ^ s * 2 ^ 53 := Nat.mul_le_mul_left _ hhigh
      _ = 2 ^ (52 + s + 1) := by rw [← Nat.pow_add]; congr 1; omega

/-- The place of an integer between two numbers: the nearer one's, or else the even one. -/
theorem nearestRank_grid : nearestRank (2 ^ s * q + r) 1 = (s + 1074) * block +
    if 2 * r < 2 ^ s then q else if 2 ^ s < 2 * r then q + 1 else q + q % 2 := by
  have hpos : 2 ^ s * q + r ≠ 0 := by
    have : 0 < 2 ^ s * q := Nat.mul_pos (Nat.two_pow_pos s) (by omega)
    omega
  rw [nearestRank_of_pos hpos, log2_grid hlow hhigh hr]
  have hround : (if 52 + s ≤ 52 then (2 ^ s * q + r) * 2 ^ (52 - (52 + s))
      else roundToEven (2 ^ s * q + r) (2 ^ (52 + s - 52))) = roundToEven (2 ^ s * q + r) (2 ^ s) := by
    rw [Nat.add_sub_cancel_left]
    split
    · obtain rfl : s = 0 := by omega
      rw [Nat.pow_zero, roundToEven_one, Nat.mul_one]
    · rfl
  rw [hround, roundToEven, Nat.mul_add_div (Nat.two_pow_pos s), Nat.div_eq_of_lt hr,
    Nat.mul_add_mod, Nat.mod_eq_of_lt hr, Nat.add_zero]
  congr 2
  omega

theorem nearestRank_lower (h : 2 * r < 2 ^ s) :
    nearestRank (2 ^ s * q + r) 1 = (s + 1074) * block + q := by
  rw [nearestRank_grid hlow hhigh hr, if_pos h]

theorem nearestRank_upper (h : 2 ^ s < 2 * r) :
    nearestRank (2 ^ s * q + r) 1 = (s + 1074) * block + (q + 1) := by
  rw [nearestRank_grid hlow hhigh hr, if_neg (by omega), if_pos h]

theorem nearestRank_tie (h : 2 * r = 2 ^ s) :
    nearestRank (2 ^ s * q + r) 1 = (s + 1074) * block + (q + q % 2) := by
  rw [nearestRank_grid hlow hhigh hr, if_neg (by omega), if_neg (by omega)]

end Grid

theorem exists_grid {n : Nat} (h : 2 ^ 52 ≤ n) :
    ∃ s q r, n = 2 ^ s * q + r ∧ 2 ^ 52 ≤ q ∧ q < 2 ^ 53 ∧ r < 2 ^ s := by
  have hn0 : n ≠ 0 := by omega
  have hlog : 52 ≤ n.log2 := (Nat.le_log2 hn0).2 h
  have hpos := Nat.two_pow_pos (n.log2 - 52)
  refine ⟨n.log2 - 52, n / 2 ^ (n.log2 - 52), n % 2 ^ (n.log2 - 52), (Nat.div_add_mod ..).symm,
    ?_, ?_, Nat.mod_lt _ hpos⟩
  · rw [Nat.le_div_iff_mul_le hpos, ← Nat.pow_add, Nat.add_sub_cancel' hlog]
    exact Nat.log2_self_le hn0
  · rw [Nat.div_lt_iff_lt_mul hpos, ← Nat.pow_add]
    calc n < 2 ^ (n.log2 + 1) := Nat.lt_log2_self
      _ = 2 ^ (53 + (n.log2 - 52)) := by congr 1; omega

/-! ## Neighbours -/

section Neighbours

variable {s q r : Nat} (hlow : 2 ^ 52 ≤ q) (hhigh : q < 2 ^ 53)
include hlow hhigh

/-- Where at least three integers lie between two numbers, each of them is rounded as one of its
neighbours is. -/
theorem neighbour_grid (hs : 2 ≤ s) (hr : r < 2 ^ s) :
    nearestRank (2 ^ s * q + r + 1) 1 = nearestRank (2 ^ s * q + r) 1 ∨
      nearestRank (2 ^ s * q + r - 1) 1 = nearestRank (2 ^ s * q + r) 1 := by
  have hfour : 4 ≤ 2 ^ s := Nat.pow_le_pow_right (by decide : 0 < 2) hs
  have hbefore : r - 1 < 2 ^ s := by omega
  -- The neighbour on the same side of the middle will do. In the middle it is the one on the side to
  -- which ties go, and next to a number it may be this number.
  rcases Nat.lt_trichotomy (2 * r) (2 ^ s) with hsmall | htie | hlarge
  · rw [nearestRank_lower hlow hhigh hr hsmall]
    by_cases hzero : r = 0
    · left
      exact nearestRank_lower hlow hhigh (r := r + 1) (by omega) (by omega)
    · right
      rw [Nat.add_sub_assoc (by omega)]
      exact nearestRank_lower hlow hhigh hbefore (by omega)
  · rw [nearestRank_tie hlow hhigh hr htie]
    rcases Nat.mod_two_eq_zero_or_one q with heven | hodd
    · right
      rw [Nat.add_sub_assoc (by omega), heven]
      exact nearestRank_lower hlow hhigh hbefore (by omega)
    · left
      rw [hodd]
      exact nearestRank_upper hlow hhigh (r := r + 1) (by omega) (by omega)
  · rw [nearestRank_upper hlow hhigh hr hlarge]
    by_cases hlast : r + 1 = 2 ^ s
    · -- The next integer is a number itself, and the one before may lie in the middle.
      by_cases hmiddle : 2 * (r - 1) = 2 ^ s
      · rcases Nat.mod_two_eq_zero_or_one q with heven | hodd
        · left
          have hnext : 2 ^ s * q + r + 1 = 2 ^ s * (q + 1) + 0 := by
            rw [Nat.add_assoc, hlast, Nat.mul_succ, Nat.add_zero]
          rw [hnext]
          exact nearestRank_lower (by omega) (by omega) (Nat.two_pow_pos s) (Nat.two_pow_pos s)
        · right
          rw [Nat.add_sub_assoc (by omega), nearestRank_tie hlow hhigh hbefore hmiddle, hodd]
      · right
        rw [Nat.add_sub_assoc (by omega)]
        exact nearestRank_upper hlow hhigh hbefore (by omega)
    · left
      exact nearestRank_upper hlow hhigh (r := r + 1) (by omega) (by omega)

/-- Where one integer lies between two numbers, it is rounded as the even one of them is. The numbers that
are left out have an odd place. -/
theorem neighbour_pair {n : Nat} (hpair : n = 2 * q + n % 2) (hfour : n % 4 ≠ 2) :
    nearestRank (n + 1) 1 = nearestRank n 1 ∨ nearestRank (n - 1) 1 = nearestRank n 1 := by
  have hnumber : nearestRank (2 * q) 1 = 1075 * block + q :=
    nearestRank_lower (s := 1) (r := 0) hlow hhigh (by decide) (by decide)
  -- The odd integer between `2 * q` and `2 * (q + 1)` is rounded to the one whose half is even.
  have hmiddle : nearestRank (2 * q + 1) 1 = 1075 * block + (q + q % 2) :=
    nearestRank_tie (s := 1) (r := 1) hlow hhigh (by decide) (by decide)
  rcases Nat.mod_two_eq_zero_or_one n with heven | hodd
  · left
    rw [heven, Nat.add_zero] at hpair
    rw [hpair, hmiddle, hnumber]
    omega
  · rcases Nat.mod_two_eq_zero_or_one q with hbelow | habove
    · right
      rw [hpair, hodd, Nat.add_sub_cancel, hmiddle, hnumber]
      omega
    · left
      by_cases hlast : q + 1 = 2 ^ 53
      · obtain rfl : n = 2 ^ 54 - 1 := by omega
        decide
      · have hnext : nearestRank (2 * (q + 1)) 1 = 1075 * block + (q + 1) :=
          nearestRank_lower (s := 1) (r := 0) (by omega) (by omega) (by decide) (by decide)
        rw [hpair, hodd, hmiddle, habove]
        exact hnext

end Neighbours

/-- From `2 ^ 53` on an integer is rounded as one of its neighbours is, unless it is a number below
`2 ^ 54` that has an odd place: both its neighbours lie in the middle between two numbers then, and are
rounded to the other one. -/
theorem exists_neighbour {n : Nat} (h : 2 ^ 53 ≤ n) (halone : ¬ (n < 2 ^ 54 ∧ n % 4 = 2)) :
    nearestRank (n + 1) 1 = nearestRank n 1 ∨ nearestRank (n - 1) 1 = nearestRank n 1 := by
  obtain ⟨s, q, r, rfl, hlow, hhigh, hr⟩ := exists_grid (n := n) (by omega)
  -- With nothing between the numbers the integer is below `2 ^ 53`; otherwise one integer lies there, or
  -- at least three.
  match s with
  | 0 => omega
  | 1 => exact neighbour_pair hlow hhigh (by omega) (by omega)
  | s + 2 => exact neighbour_grid hlow hhigh (by omega) hr

/-! ## Signs -/

theorem nearestRank_eq_zero {n : Nat} (h : nearestRank n 1 = 0) : n = 0 :=
  eq_of_nearestRank_eq_of_lt (by decide) (h.trans nearestRank_zero.symm)

theorem keyOfInt_eq_iff {m n : Int} : keyOfInt m = keyOfInt n ↔
    (m < 0 ↔ n < 0) ∧ nearestRank m.natAbs 1 = nearestRank n.natAbs 1 := by
  have hm := nearestRank_eq_zero (n := m.natAbs)
  have hn := nearestRank_eq_zero (n := n.natAbs)
  unfold keyOfInt
  constructor
  · intro h
    split at h <;> split at h <;> omega
  · rintro ⟨hsign, hrank⟩
    rw [hrank]
    simp only [hsign]

/-- No other integer has the same nearest number: up to `2 ^ 53` this is so for all integers, and up to
`2 ^ 54` for those with an odd place. -/
def Alone (n : Int) : Prop :=
  n.natAbs < 2 ^ 53 ∨ n.natAbs < 2 ^ 54 ∧ n.natAbs % 4 = 2

variable {m n : Int}

theorem Alone.eq_of_keyOfInt_eq (h : Alone n) (hkey : keyOfInt m = keyOfInt n) : m = n := by
  obtain ⟨hsign, hrank⟩ := keyOfInt_eq_iff.1 hkey
  have habs : m.natAbs = n.natAbs := by
    by_cases hsmall : n.natAbs < 2 ^ 53
    · exact eq_of_nearestRank_eq_of_lt hsmall hrank
    · obtain ⟨hlt, hodd⟩ := h.resolve_left hsmall
      exact eq_of_nearestRank_eq_of_odd (by omega) hlt hodd hrank
  omega

theorem keyOfInt_natAbs_eq (hsign : m < 0 ↔ n < 0) {k : Nat} (hk : m.natAbs = k)
    (h : nearestRank k 1 = nearestRank n.natAbs 1) : keyOfInt m = keyOfInt n :=
  keyOfInt_eq_iff.2 ⟨hsign, hk ▸ h⟩

/-- A word that is not alone shares its nearest number with another word. -/
theorem exists_word_of_not_alone (hn : Json.IsWord n) (h : ¬ Alone n) :
    ∃ m, Json.IsWord m ∧ keyOfInt m = keyOfInt n ∧ m ≠ n := by
  obtain ⟨hlow, hhigh⟩ := hn
  unfold Alone at h
  -- The neighbours of the two words at the ends of the range may be no words.
  by_cases hfirst : n = -0x8000000000000000
  · exact ⟨-0x7FFFFFFFFFFFFFFF, by decide, by rw [hfirst]; decide, by omega⟩
  by_cases hlast : n = 0xFFFFFFFFFFFFFFFF
  · exact ⟨0xFFFFFFFFFFFFFFFE, by decide, by rw [hlast]; decide, by omega⟩
  rcases exists_neighbour (n := n.natAbs) (by omega) (by omega) with hup | hdown
  · by_cases hneg : n < 0
    · exact ⟨n - 1, ⟨by omega, by omega⟩, keyOfInt_natAbs_eq (by omega) (by omega) hup, by omega⟩
    · exact ⟨n + 1, ⟨by omega, by omega⟩, keyOfInt_natAbs_eq (by omega) (by omega) hup, by omega⟩
  · by_cases hneg : n < 0
    · exact ⟨n + 1, ⟨by omega, by omega⟩, keyOfInt_natAbs_eq (by omega) (by omega) hdown, by omega⟩
    · exact ⟨n - 1, ⟨by omega, by omega⟩, keyOfInt_natAbs_eq (by omega) (by omega) hdown, by omega⟩

end NamedQuery.Numeric
