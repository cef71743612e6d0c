import NamedQuery.Text.Classes

/-! # Trimmed texts

`Trims s t` says what trimming is for without saying how it is done: `t` is `s` without white space
at either end. Every text has exactly one such part, and `trimmed` finds it. -/

namespace NamedQuery.Text

/-- A text without white space at either end. -/
def IsTrimmed (cs : List Char) : Prop :=
  (∀ c, cs.head? = some c → isBlank c = false) ∧ ∀ c, cs.getLast? = some c → isBlank c = false

/-- The text `t` is the text `s` without the white space at either end. -/
def Trims (s t : String) : Prop :=
  IsTrimmed t.toList ∧
    ∃ front back, s.toList = front ++ t.toList ++ back ∧
      (∀ c ∈ front, isBlank c) ∧ ∀ c ∈ back, isBlank c

/-! ## What `trim` leaves -/

theorem blank_of_mem_takeWhile {cs : List Char} {c : Char} (h : c ∈ cs.takeWhile isBlank) :
    isBlank c := by
  have hall := List.all_takeWhile (p := isBlank) (l := cs)
  exact List.all_eq_true.1 hall c h

/-- Dropping blanks from the front leaves a text that does not begin with one. -/
theorem head?_dropWhile_blank (cs : List Char) :
    ∀ c, (cs.dropWhile isBlank).head? = some c → isBlank c = false := by
  intro c h
  have hhead := List.head?_dropWhile_not isBlank cs
  rw [h] at hhead
  simpa using hhead

/-- What trimming leaves, and the blanks at the back that it drops. -/
theorem trim_append_back (cs : List Char) :
    trim cs ++ ((cs.dropWhile isBlank).reverse.takeWhile isBlank).reverse = cs.dropWhile isBlank := by
  rw [trim, ← List.reverse_append, List.takeWhile_append_dropWhile, List.reverse_reverse]

theorem trim_split (cs : List Char) :
    ∃ front back, cs = front ++ trim cs ++ back ∧
      (∀ c ∈ front, isBlank c) ∧ ∀ c ∈ back, isBlank c := by
  refine ⟨cs.takeWhile isBlank, ((cs.dropWhile isBlank).reverse.takeWhile isBlank).reverse, ?_,
    fun c hc => blank_of_mem_takeWhile hc,
    fun c hc => blank_of_mem_takeWhile (List.mem_reverse.1 hc)⟩
  rw [List.append_assoc, trim_append_back, List.takeWhile_append_dropWhile]

theorem isTrimmed_trim (cs : List Char) : IsTrimmed (trim cs) := by
  constructor
  · intro c h
    -- What is dropped from the back does not touch the first character, unless nothing is left.
    apply head?_dropWhile_blank cs c
    rw [← trim_append_back, List.head?_append, h, Option.some_or]
  · intro c h
    rw [trim, List.getLast?_reverse] at h
    exact head?_dropWhile_blank _ c h

/-- `trimmed` trims. -/
theorem trims_trimmed (s : String) : Trims s (trimmed s) := by
  refine ⟨?_, ?_⟩
  · rw [trimmed, String.toList_ofList]
    exact isTrimmed_trim s.toList
  · rw [trimmed, String.toList_ofList]
    exact trim_split s.toList

/-! ## Uniqueness -/

theorem dropWhile_blank_append {front cs : List Char} (hfront : ∀ c ∈ front, isBlank c) :
    (front ++ cs).dropWhile isBlank = cs.dropWhile isBlank := by
  rw [List.dropWhile_append_of_pos hfront]

theorem dropWhile_blank_of_head {cs : List Char}
    (h : ∀ c, cs.head? = some c → isBlank c = false) : cs.dropWhile isBlank = cs := by
  cases cs with
  | nil => rfl
  | cons c rest => simp [h c rfl]

theorem trim_eq_of_split {front cs back : List Char} (hfront : ∀ c ∈ front, isBlank c)
    (hback : ∀ c ∈ back, isBlank c) (h : IsTrimmed cs) : trim (front ++ cs ++ back) = cs := by
  cases hcs : cs with
  | nil =>
    -- Nothing but blanks: all of it is dropped from the front.
    have hall : ∀ c ∈ front ++ back, isBlank c := by
      intro c hc
      rcases List.mem_append.1 hc with hc | hc
      · exact hfront c hc
      · exact hback c hc
    have hdrop : (front ++ back).dropWhile isBlank = [] := by
      rw [← List.append_nil (front ++ back), dropWhile_blank_append hall, List.dropWhile_nil]
    simp [trim, hdrop]
  | cons c rest =>
    subst hcs
    have hdrop : (front ++ (c :: rest) ++ back).dropWhile isBlank = c :: rest ++ back := by
      rw [List.append_assoc, dropWhile_blank_append hfront]
      exact dropWhile_blank_of_head fun d hd => h.1 d (by simpa using hd)
    have hlast : ((c :: rest).reverse).dropWhile isBlank = (c :: rest).reverse :=
      dropWhile_blank_of_head fun d hd => h.2 d (by rwa [List.head?_reverse] at hd)
    rw [trim, hdrop, List.reverse_append,
      dropWhile_blank_append fun d hd => hback d (List.mem_reverse.1 hd), hlast,
      List.reverse_reverse]

/-- A text has only one trimmed part. -/
theorem Trims.eq_trimmed {s t : String} (h : Trims s t) : t = trimmed s := by
  obtain ⟨htrimmed, front, back, hs, hfront, hback⟩ := h
  rw [trimmed, hs, trim_eq_of_split hfront hback htrimmed, String.ofList_toList]

theorem trim_trim (cs : List Char) : trim (trim cs) = trim cs := by
  have h := @trim_eq_of_split [] (trim cs) [] nofun nofun (isTrimmed_trim cs)
  rwa [List.nil_append, List.append_nil] at h

end NamedQuery.Text
