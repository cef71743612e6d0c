import NamedQuery.Inflection.English
import NamedQuery.Inflection.Naming

/-! # Singular and plural

Only the last word of a compound name is inflected: `BlogPost` becomes `BlogPosts`. A name counts
as plural when pluralizing leaves it alone. -/

namespace NamedQuery.Inflection

/-- One direction of inflection: irregular forms from the one number to the other, and rules. -/
structure Direction where
  irregular : List (String × String)
  rules : List Rule

namespace Direction

def toPlural : Direction := ⟨Inflection.irregular, pluralRules⟩

def toSingular : Direction := ⟨Inflection.irregular.map Prod.swap, singularRules⟩

end Direction

/-- A word of the dictionary with the capital, if any, of the word it stands for. -/
def withCaseOf (model form : List Char) : List Char :=
  if model.head?.any Text.isUppercase then capitalize form else form

/-- The irregular form of a word, if it has one; a word that is itself such a form stays. -/
def Direction.irregular? (d : Direction) (word : List Char) : Option (List Char) :=
  let small := String.ofList (Text.lower word)
  d.irregular.findSome? fun (source, target) =>
    if small = target then some word
    else if small = source then some (withCaseOf word target.toList)
    else none

def Direction.inflectWord (d : Direction) (word : List Char) : List Char :=
  if word.isEmpty || uncountable.contains (String.ofList (Text.lower word)) then word
  else
    match d.irregular? word with
    | some form => form
    | none => (d.rules.findSome? (·.inflect? word)).getD word

/-- Inflects the last word of a name. -/
def Direction.inflect (d : Direction) (name : List Char) : List Char :=
  let (front, last) := splitLast name
  front ++ d.inflectWord last

def pluralize (name : String) : String :=
  String.ofList (Direction.toPlural.inflect name.toList)

def singularize (name : String) : String :=
  String.ofList (Direction.toSingular.inflect name.toList)

def isPlural (name : String) : Bool :=
  pluralize name == name

def isSingular (name : String) : Bool :=
  singularize name == name

end NamedQuery.Inflection
