import NamedQuery.Json.Basic

/-! # Writing JSON

Two layouts of the same text: `text` leaves out all white space, `indented` puts every item on a
line of its own. Characters outside ASCII are written as they are. -/

namespace NamedQuery.Json

/-! ## Strings -/

def hexDigit (n : Nat) : Char :=
  if n < 10 then Char.ofNat (0x30 + n) else Char.ofNat (0x57 + n)

/-- A character inside quotes: quotes, backslashes and control characters are escaped. -/
def escaped (c : Char) : List Char :=
  if c = '"' then ['\\', '"']
  else if c = '\\' then ['\\', '\\']
  else if c = '\n' then ['\\', 'n']
  else if c = '\t' then ['\\', 't']
  else if c = '\r' then ['\\', 'r']
  else if c = '\x08' then ['\\', 'b']
  else if c = '\x0c' then ['\\', 'f']
  else if c.toNat < 0x20 then
    ['\\', 'u', '0', '0', hexDigit (c.toNat / 16), hexDigit (c.toNat % 16)]
  else [c]

def quoted (s : String) : List Char :=
  '"' :: s.toList.flatMap escaped ++ ['"']

/-! ## Compact text -/

mutual
def chars : Json → List Char
  | null => ['n', 'u', 'l', 'l']
  | bool true => ['t', 'r', 'u', 'e']
  | bool false => ['f', 'a', 'l', 's', 'e']
  | number n => n.text.toList
  | string s => quoted s
  | array [] => ['[', ']']
  | array (x :: xs) => '[' :: x.chars ++ moreItems xs
  | object [] => ['{', '}']
  | object ((k, x) :: xs) => '{' :: quoted k ++ ':' :: x.chars ++ moreFields xs
/-- The items that follow another one, with the closing bracket. -/
def moreItems : List Json → List Char
  | [] => [']']
  | x :: xs => ',' :: x.chars ++ moreItems xs
def moreFields : List (String × Json) → List Char
  | [] => ['}']
  | (k, x) :: xs => ',' :: quoted k ++ ':' :: x.chars ++ moreFields xs
end

def text (x : Json) : String :=
  String.ofList x.chars

/-! ## Indented text -/

/-- A new line at a level of nesting, two blanks to a level. -/
def lineBreak (level : Nat) : List Char :=
  '\n' :: List.replicate (2 * level) ' '

mutual
def indentedChars (level : Nat) : Json → List Char
  | array (x :: xs) =>
    '[' :: lineBreak (level + 1) ++ x.indentedChars (level + 1) ++ moreItemsIndented level xs
  | object ((k, x) :: xs) =>
    '{' :: lineBreak (level + 1) ++ quoted k ++ ':' :: ' ' :: x.indentedChars (level + 1) ++
      moreFieldsIndented level xs
  | array [] => ['[', ']']
  | object [] => ['{', '}']
  | null => ['n', 'u', 'l', 'l']
  | bool true => ['t', 'r', 'u', 'e']
  | bool false => ['f', 'a', 'l', 's', 'e']
  | number n => n.text.toList
  | string s => quoted s
def moreItemsIndented (level : Nat) : List Json → List Char
  | [] => lineBreak level ++ [']']
  | x :: xs =>
    ',' :: lineBreak (level + 1) ++ x.indentedChars (level + 1) ++ moreItemsIndented level xs
def moreFieldsIndented (level : Nat) : List (String × Json) → List Char
  | [] => lineBreak level ++ ['}']
  | (k, x) :: xs =>
    ',' :: lineBreak (level + 1) ++ quoted k ++ ':' :: ' ' :: x.indentedChars (level + 1) ++
      moreFieldsIndented level xs
end

def indented (x : Json) : String :=
  String.ofList (x.indentedChars 0)

end NamedQuery.Json
