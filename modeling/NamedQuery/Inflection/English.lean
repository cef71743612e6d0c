import NamedQuery.Inflection.Rule

/-! # English plurals

The rules for the plural and the singular of English nouns, in the order in which they are tried,
with the nouns that have irregular plurals and those that have none. -/

namespace NamedQuery.Inflection

/-- Nouns with one form for both numbers. -/
def uncountable : List String := [
  "equipment", "information", "rice", "money", "species", "series", "fish", "sheep", "jeans",
  "police", "news"]

/-- Nouns with irregular plurals: singular and plural. -/
def irregular : List (String × String) := [
  ("person", "people"), ("man", "men"), ("woman", "women"), ("child", "children"),
  ("sex", "sexes"), ("move", "moves"), ("zombie", "zombies")]

/-! ## Groups of letters -/

def anyOf (spellings : List String) : List (List Letter) := spellings.map spelled

def nothing : List (List Letter) := [[]]

def eitherOf (c d : Char) : List (List Letter) := [[.oneOf [c, d]]]

def consonantOrQu : List (List Letter) :=
  [[.noneOf ['a', 'e', 'i', 'o', 'u', 'y']], spelled "qu"]

/-- The endings after which a plural needs a vowel. -/
def hissing : List (List Letter) := anyOf ["x", "ch", "ss", "sh"]

def notF : List (List Letter) := [[.noneOf ['f']]]

/-! ## The rules -/

def pluralRules : List Rule := [
  .ending (anyOf ["quiz"]) nothing "zes",
  .whole (anyOf ["oxen"]) nothing "",
  .whole (anyOf ["ox"]) nothing "en",
  .ending (eitherOf 'm' 'l') (anyOf ["ice"]) "ice",
  .ending (eitherOf 'm' 'l') (anyOf ["ouse"]) "ice",
  .ending (anyOf ["matr", "vert", "ind"]) (anyOf ["ix", "ex"]) "ices",
  .ending hissing nothing "es",
  .ending consonantOrQu (anyOf ["y"]) "ies",
  .ending (anyOf ["hive"]) nothing "s",
  .ending (eitherOf 'l' 'r') (anyOf ["f"]) "ves",
  .ending notF (anyOf ["fe"]) "ves",
  .ending nothing (anyOf ["sis"]) "ses",
  .ending (eitherOf 't' 'i') (anyOf ["a"]) "a",
  .ending (eitherOf 't' 'i') (anyOf ["um"]) "a",
  .ending (anyOf ["buffal", "tomat"]) (anyOf ["o"]) "oes",
  .ending (anyOf ["bu"]) (anyOf ["s"]) "ses",
  .ending (anyOf ["alias", "status"]) nothing "es",
  .ending (anyOf ["octop", "vir"]) (anyOf ["i"]) "i",
  .ending (anyOf ["octop", "vir"]) (anyOf ["us"]) "i",
  .whole (anyOf ["ax", "test"]) (anyOf ["is"]) "es",
  .ending nothing (anyOf ["s"]) "s",
  .ending nothing nothing "s"]

def singularRules : List Rule := [
  .ending (anyOf ["database"]) (anyOf ["s"]) "",
  .ending (anyOf ["quiz"]) (anyOf ["zes"]) "",
  .ending (anyOf ["matr"]) (anyOf ["ices"]) "ix",
  .ending (anyOf ["vert", "ind"]) (anyOf ["ices"]) "ex",
  ⟨.beginning, anyOf ["ox"], anyOf ["en"], []⟩,
  .ending (anyOf ["alias", "status"]) (anyOf ["es", ""]) "",
  .ending (anyOf ["octop", "vir"]) (anyOf ["us", "i"]) "us",
  .whole (anyOf ["a"]) [[.one 'x', .oneOf ['i', 'e'], .one 's']] "xis",
  .ending (anyOf ["cris", "test"]) (anyOf ["is", "es"]) "is",
  .ending (anyOf ["shoe"]) (anyOf ["s"]) "",
  .ending (anyOf ["o"]) (anyOf ["es"]) "",
  .ending (anyOf ["bus"]) (anyOf ["es", ""]) "",
  .ending (eitherOf 'm' 'l') (anyOf ["ice"]) "ouse",
  .ending hissing (anyOf ["es"]) "",
  .ending (anyOf ["m"]) (anyOf ["ovies"]) "ovie",
  .ending consonantOrQu (anyOf ["ies"]) "y",
  .ending (eitherOf 'l' 'r') (anyOf ["ves"]) "f",
  .ending (anyOf ["tive"]) (anyOf ["s"]) "",
  .ending (anyOf ["hive"]) (anyOf ["s"]) "",
  .ending notF (anyOf ["ves"]) "fe",
  .ending (anyOf ["analy", "ba", "diagno", "parenthe", "progno", "synop", "the"])
    (anyOf ["sis", "ses"]) "sis",
  .ending (eitherOf 't' 'i') (anyOf ["a"]) "um",
  .ending (anyOf ["ss"]) nothing "",
  .ending nothing (anyOf ["s"]) ""]

end NamedQuery.Inflection
