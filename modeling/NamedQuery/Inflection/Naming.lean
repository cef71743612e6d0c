import NamedQuery.Text.Case
import NamedQuery.Text.Classes

/-! # Compound names

A compound name joins words either by underscores (`blog_posts`) or by capitals (`BlogPosts`,
`HTTPCode`). A capital begins a word after a small letter or a digit, and it also begins one after
another capital if a small letter follows: the last capital of an acronym belongs to the next
word.

`underscore` turns a CamelCase name into lower-case words joined by underscores, `camelize` joins
such words by capitals. They are inverse to each other except where a boundary cannot be seen:
`underscore` needs a small letter or a digit on one side of it. -/

namespace NamedQuery.Inflection

/-! ## Word boundaries -/

structure Alphabet where
  isUpper : Char → Bool
  isLower : Char → Bool
  isDigit : Char → Bool

namespace Alphabet

/-- Letters of all scripts, with the digits of ASCII. -/
def unicode : Alphabet := ⟨Text.isUppercase, Text.isLowercase, Char.isDigit⟩

/-- Letters of ASCII, with the digits of all scripts. -/
def ascii : Alphabet := ⟨Char.isUpper, Char.isLower, Text.isDecimalDigit⟩

/-- Whether a word begins at `c`, between `prev` and the character that may follow. -/
def isBoundary (a : Alphabet) (prev c : Char) (next : Option Char) : Bool :=
  a.isUpper c &&
    (a.isLower prev || a.isDigit prev || (a.isUpper prev && next.any a.isLower))

/-- Inside ASCII the two alphabets see the same boundaries. -/
theorem isBoundary_unicode_eq_ascii {prev c : Char} {next : Option Char}
    (hprev : prev.toNat < 0x80) (hc : c.toNat < 0x80) (hnext : ∀ n ∈ next, n.toNat < 0x80) :
    unicode.isBoundary prev c next = ascii.isBoundary prev c next := by
  have hany : next.any Text.isLowercase = next.any Char.isLower := by
    cases next with
    | none => rfl
    | some n => simp [Text.isLowercase_of_ascii (hnext n rfl)]
  simp [isBoundary, unicode, ascii, Text.isUppercase_of_ascii hprev, Text.isUppercase_of_ascii hc,
    Text.isLowercase_of_ascii hprev, Text.isDecimalDigit_of_ascii hprev, hany]

end Alphabet

/-! ## The last word -/

/-- Splits the rest of a name, of which `before` and then `word` have been read, both last
character first: `word` is what follows the last boundary so far. -/
def splitLastAfter (before word : List Char) : Option Char → List Char → List Char × List Char
  | _, [] => (before.reverse, word.reverse)
  | prev, c :: rest =>
    if c = '_' then splitLastAfter (c :: word ++ before) [] (some c) rest
    else if prev.any fun p => Alphabet.unicode.isBoundary p c rest.head? then
      splitLastAfter (word ++ before) [c] (some c) rest
    else splitLastAfter before (c :: word) (some c) rest

/-- A name as its last word and all that stands before it. The last word is empty after a final
underscore. -/
def splitLast (name : List Char) : List Char × List Char :=
  splitLastAfter [] [] none name

theorem splitLastAfter_append (before word : List Char) (prev : Option Char) (rest : List Char) :
    (splitLastAfter before word prev rest).1 ++ (splitLastAfter before word prev rest).2 =
      before.reverse ++ word.reverse ++ rest := by
  induction rest generalizing before word prev with
  | nil => simp [splitLastAfter]
  | cons c rest ih =>
    simp only [splitLastAfter]
    split
    · rw [ih]; simp
    · split
      · rw [ih]; simp
      · rw [ih]; simp

/-- Splitting loses nothing. -/
theorem splitLast_append (name : List Char) : (splitLast name).1 ++ (splitLast name).2 = name := by
  simpa [splitLast] using splitLastAfter_append [] [] none name

/-! ## Underscores -/

/-- Puts an underscore before every capital that begins a word, given the character before. -/
def separateAfter (prev : Option Char) : List Char → List Char
  | [] => []
  | c :: rest =>
    (if prev.any fun p => Alphabet.ascii.isBoundary p c rest.head? then ['_', c] else [c]) ++
      separateAfter (some c) rest

def separate (name : List Char) : List Char :=
  separateAfter none name

/-- A hyphen joins words as an underscore does. -/
def unhyphened (c : Char) : Char :=
  if c = '-' then '_' else c

/-- The snake_case form of a name: `EmailAddress` is `email_address`, `HTTPCode` is `http_code`. -/
def underscore (name : String) : String :=
  String.ofList (Text.lower ((separate name.toList).map unhyphened))

/-! ## Capitals -/

def capitalize : List Char → List Char
  | [] => []
  | c :: rest => Text.uppercase c ++ rest

/-- The CamelCase form of a name: `blog_posts` is `BlogPosts`. -/
def camelize (name : String) : String :=
  String.ofList ((name.toList.splitOn '_').flatMap capitalize)

end NamedQuery.Inflection
