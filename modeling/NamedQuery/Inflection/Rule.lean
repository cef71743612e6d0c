/-! # Rules for word endings

A rule looks at the end of a word (or at the whole word, or its beginning): it keeps one group of
letters, drops the letters after it and adds others in their place. Letters are matched in either
case, and what is added is in lower case. -/

namespace NamedQuery.Inflection

/-- The small letter a character stands for when case is ignored: besides the capitals of ASCII
there are the long s and the sign for kelvin. -/
def smallLetter (c : Char) : Char :=
  if c = 'ſ' then 's' else if c = 'K' then 'k' else c.toLower

inductive Letter where
  | one (c : Char)
  | oneOf (cs : List Char)
  | noneOf (cs : List Char)
deriving DecidableEq

def Letter.accepts : Letter → Char → Bool
  | .one d, c => smallLetter c == d
  | .oneOf ds, c => ds.contains (smallLetter c)
  | .noneOf ds, c => !ds.contains (smallLetter c)

def spelled (word : String) : List Letter :=
  word.toList.map .one

/-- Whether a pattern accepts a text of just its length. -/
def acceptsAll : List Letter → List Char → Bool
  | [], [] => true
  | l :: pattern, c :: rest => l.accepts c && acceptsAll pattern rest
  | _, _ => false

inductive Place where
  | ending
  | whole
  | beginning
deriving DecidableEq

/-- A rule for words. `kept` and `dropped` are alternatives; one of the first directly followed by
one of the second has to stand at `place`. -/
structure Rule where
  place : Place
  kept : List (List Letter)
  dropped : List (List Letter)
  added : List Char

namespace Rule

/-- Applies one alternative of a rule. -/
def inflectWith? (place : Place) (kept dropped : List Letter) (added word : List Char) :
    Option (List Char) :=
  let pattern := kept ++ dropped
  match place with
  | .ending =>
    let start := word.length - pattern.length
    if acceptsAll pattern (word.drop start) then some (word.take (start + kept.length) ++ added)
    else none
  | .whole => if acceptsAll pattern word then some (word.take kept.length ++ added) else none
  | .beginning =>
    if acceptsAll pattern (word.take pattern.length) then
      some (word.take kept.length ++ added ++ word.drop pattern.length)
    else none

def inflect? (rule : Rule) (word : List Char) : Option (List Char) :=
  rule.kept.findSome? fun kept =>
    rule.dropped.findSome? fun dropped => inflectWith? rule.place kept dropped rule.added word

def ending (kept dropped : List (List Letter)) (added : String) : Rule :=
  ⟨.ending, kept, dropped, added.toList⟩

def whole (kept dropped : List (List Letter)) (added : String) : Rule :=
  ⟨.whole, kept, dropped, added.toList⟩

end Rule

end NamedQuery.Inflection
