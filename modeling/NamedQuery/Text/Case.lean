import NamedQuery.Text.CaseData

/-! # Letter case

Upper and lower case for all of Unicode, by character and for whole texts. A letter may become
several (`ß` is `SS` in upper case), so the case of a character is a list. Inside ASCII these
functions are the ones of `Char`. -/

namespace NamedQuery.Text

/-! ## Classes of characters -/

/-- Capital letters, and the signs Unicode counts among them. -/
def isUppercase (c : Char) : Bool :=
  if c.toNat < 0x80 then c.isUpper else CaseData.uppercase.any (·.contains c.toNat)

def isLowercase (c : Char) : Bool :=
  if c.toNat < 0x80 then c.isLower else CaseData.lowercase.any (·.contains c.toNat)

def isCased (c : Char) : Bool :=
  isUppercase c || isLowercase c || CaseData.titlecase.any (·.contains c.toNat)

/-- Characters that do not end a word for the purpose of case: apostrophes, points, marks. -/
def isCaseIgnorable (c : Char) : Bool :=
  if c.toNat < 0x80 then [0x27, 0x2E, 0x3A, 0x5E, 0x60].contains c.toNat
  else CaseData.ignorable.any (·.contains c.toNat)

theorem isUppercase_of_ascii {c : Char} (h : c.toNat < 0x80) : isUppercase c = c.isUpper := by
  simp [isUppercase, h]

theorem isLowercase_of_ascii {c : Char} (h : c.toNat < 0x80) : isLowercase c = c.isLower := by
  simp [isLowercase, h]

/-! ## Case of one character -/

/-- The case of `c` by a table of shifts and one of special forms. -/
def mapped (special : List (Nat × List Nat)) (shifts : List CaseData.Shift) (c : Char) :
    List Char :=
  match special.lookup c.toNat with
  | some codes => codes.map Char.ofNat
  | none =>
    match shifts.find? (·.run.contains c.toNat) with
    | some shift => [Char.ofNat (c.toNat + shift.offset).toNat]
    | none => [c]

/-- The lower case of a character, out of context. -/
def lowercase (c : Char) : List Char :=
  if c.toNat < 0x80 then [c.toLower] else mapped CaseData.toLowerSpecial CaseData.toLower c

def uppercase (c : Char) : List Char :=
  if c.toNat < 0x80 then [c.toUpper] else mapped CaseData.toUpperSpecial CaseData.toUpper c

theorem lowercase_of_ascii {c : Char} (h : c.toNat < 0x80) : lowercase c = [c.toLower] := by
  simp [lowercase, h]

theorem uppercase_of_ascii {c : Char} (h : c.toNat < 0x80) : uppercase c = [c.toUpper] := by
  simp [uppercase, h]

/-! ## Lower case of a text -/

/-- Whether the nearest character that counts for case is a letter with case. -/
def meetsCased (cs : List Char) : Bool :=
  match cs.dropWhile isCaseIgnorable with
  | c :: _ => isCased c
  | [] => false

/-- The lower case of the text after `before`, whose characters come last first. A capital sigma
takes its final form exactly where a word ends: after a letter with case and not before one. -/
def lowerAfter : (before : List Char) → List Char → List Char
  | _, [] => []
  | before, c :: rest =>
    (if c = 'Σ' then
      if meetsCased before && !meetsCased rest then ['ς'] else ['σ']
    else lowercase c) ++ lowerAfter (c :: before) rest

def lower (cs : List Char) : List Char :=
  lowerAfter [] cs

theorem lowerAfter_of_ascii (before : List Char) {cs : List Char}
    (h : ∀ c ∈ cs, c.toNat < 0x80) : lowerAfter before cs = cs.map Char.toLower := by
  induction cs generalizing before with
  | nil => rfl
  | cons c rest ih =>
    have hc : c.toNat < 0x80 := h c (by simp)
    have hne : c ≠ 'Σ' := by
      rintro rfl
      exact absurd hc (by decide)
    simp [lowerAfter, hne, lowercase_of_ascii hc, ih (c :: before) fun d hd => h d (by simp [hd])]

/-- On ASCII text lower case is taken character by character. -/
theorem lower_of_ascii {cs : List Char} (h : ∀ c ∈ cs, c.toNat < 0x80) :
    lower cs = cs.map Char.toLower :=
  lowerAfter_of_ascii [] h

end NamedQuery.Text
