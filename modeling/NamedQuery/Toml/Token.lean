import NamedQuery.Toml.Moment

/-! # Tokens of TOML

A text is cut into bare words, strings, punctuation, blanks and line ends; comments are dropped.
Bare words hold dots, so that a number stays in one piece; a key of bare words is taken apart later.
A date and a time of day with one space between them are one word.

`Scan` is what the cutting knows about the token under way, and `Scan.step` takes in a character.
Characters of a token under way come last first. -/

namespace NamedQuery.Toml

/-- A token. A string in three quotes is `long`. -/
inductive Token where
  | bare (word : List Char)
  | string (text : String) (long : Bool)
  | blank (c : Char)
  | lineEnd
  | equals
  | comma
  | openBracket
  | closeBracket
  | openBrace
  | closeBrace
deriving DecidableEq

/-! ## Characters -/

def isBare (c : Char) : Bool :=
  c.isAlphanum || c == '_' || c == '-' || c == '+' || c == '.' || c == ':'

def isBlank (c : Char) : Bool := c == ' ' || c == '\t'

/-- The characters of strings and comments: no control characters but the tab. -/
def isContent (c : Char) : Bool :=
  c == '\t' || (0x20 ≤ c.toNat && c.toNat != 0x7F)

def punctuation? (c : Char) : Option Token :=
  if c = '=' then some .equals
  else if c = ',' then some .comma
  else if c = '[' then some .openBracket
  else if c = ']' then some .closeBracket
  else if c = '{' then some .openBrace
  else if c = '}' then some .closeBrace
  else none

def escape? (c : Char) : Option Char :=
  if c = '"' ∨ c = '\\' then some c
  else if c = 'b' then some '\x08'
  else if c = 'f' then some '\x0c'
  else if c = 'n' then some '\n'
  else if c = 'r' then some '\r'
  else if c = 't' then some '\t'
  else none

/-- How many digits follow the letter of an escape by code point. -/
def hexLength? (c : Char) : Option Nat :=
  if c = 'u' then some 4 else if c = 'U' then some 8 else none

def charOfCode? (n : Nat) : Option Char :=
  if n.isValidChar then some (Char.ofNat n) else none

/-! ## Scanning -/

/-- The quotes around a string: double quotes allow escapes, and three of a kind allow lines. -/
structure Quotes where
  mark : Char
  long : Bool

inductive Scan where
  | between
  | bare (word : List Char)
  | comment
  /-- After a carriage return, which only a line feed may follow. -/
  | carriage
  /-- After the first quote of a string. -/
  | opening (mark : Char)
  /-- After the second quote: an empty string, or a long one. -/
  | opened (mark : Char)
  /-- Right after three quotes, where a line end does not count. -/
  | begun (mark : Char)
  | begunCarriage (mark : Char)
  | text (quotes : Quotes) (chars : List Char)
  | textCarriage (mark : Char) (chars : List Char)
  /-- After some quotes inside a long string. -/
  | closing (mark : Char) (chars : List Char) (count : Nat)
  | escape (long : Bool) (chars : List Char)
  | hex (long : Bool) (chars : List Char) (missing : Nat) (value : Nat)
  /-- After a backslash and blanks, where a line end must follow. -/
  | joining (chars : List Char)
  | joiningCarriage (chars : List Char)
  /-- After a backslash and a line end, where all white space is left out. -/
  | joined (chars : List Char)
  | joinedCarriage (chars : List Char)

namespace Scan

def stringToken (chars : List Char) (long : Bool) : Token :=
  .string (String.ofList chars.reverse) long

def start (c : Char) : Option (Scan × List Token) :=
  if isBare c then some (bare [c], [])
  else if isBlank c then some (between, [.blank c])
  else if c = '\n' then some (between, [.lineEnd])
  else if c = '\r' then some (carriage, [])
  else if c = '#' then some (comment, [])
  else if c = '"' ∨ c = '\'' then some (opening c, [])
  else (punctuation? c).map fun token => (between, [token])

def inText (quotes : Quotes) (chars : List Char) (c : Char) : Option (Scan × List Token) :=
  if c = quotes.mark then
    if quotes.long then some (closing quotes.mark chars 1, [])
    else some (between, [stringToken chars false])
  else if c = '\\' ∧ quotes.mark = '"' then some (escape quotes.long chars, [])
  else if isContent c then some (text quotes (c :: chars), [])
  else if quotes.long ∧ c = '\n' then some (text quotes ('\n' :: chars), [])
  else if quotes.long ∧ c = '\r' then some (textCarriage quotes.mark chars, [])
  else none

def afterCarriage (next : Scan) (tokens : List Token) (c : Char) : Option (Scan × List Token) :=
  if c = '\n' then some (next, tokens) else none

def inEscape (long : Bool) (chars : List Char) (c : Char) : Option (Scan × List Token) :=
  match escape? c, hexLength? c with
  | some d, _ => some (text ⟨'"', long⟩ (d :: chars), [])
  | none, some length => some (hex long chars (length - 1) 0, [])
  | none, none =>
    if !long then none
    else if isBlank c then some (joining chars, [])
    else if c = '\n' then some (joined chars, [])
    else if c = '\r' then some (joiningCarriage chars, [])
    else none

/-- Takes in a character; the tokens that it completes come out. -/
def step : Scan → Char → Option (Scan × List Token)
  | between, c => start c
  | bare word, c =>
    if isBare c then some (bare (c :: word), [])
    else (start c).map fun (scan, tokens) => (scan, .bare word.reverse :: tokens)
  | comment, c =>
    if c = '\n' then some (between, [.lineEnd])
    else if c = '\r' then some (carriage, [])
    else if isContent c then some (comment, [])
    else none
  | carriage, c => afterCarriage between [.lineEnd] c
  | opening mark, c => if c = mark then some (opened mark, []) else inText ⟨mark, false⟩ [] c
  | opened mark, c =>
    if c = mark then some (begun mark, [])
    else (start c).map fun (scan, tokens) => (scan, stringToken [] false :: tokens)
  | begun mark, c =>
    if c = '\n' then some (text ⟨mark, true⟩ [], [])
    else if c = '\r' then some (begunCarriage mark, [])
    else inText ⟨mark, true⟩ [] c
  | begunCarriage mark, c => afterCarriage (text ⟨mark, true⟩ []) [] c
  | text quotes chars, c => inText quotes chars c
  | textCarriage mark chars, c => afterCarriage (text ⟨mark, true⟩ ('\n' :: chars)) [] c
  | closing mark chars count, c =>
    if c = mark then
      -- Of five quotes in a row the first two belong to the string.
      if count < 4 then some (closing mark chars (count + 1), [])
      else some (between, [stringToken (mark :: mark :: chars) true])
    else if count < 3 then inText ⟨mark, true⟩ (List.replicate count mark ++ chars) c
    else
      (start c).map fun (scan, tokens) =>
        (scan, stringToken (List.replicate (count - 3) mark ++ chars) true :: tokens)
  | escape long chars, c => inEscape long chars c
  | hex long chars missing value, c => do
    let value := value * 16 + (← Text.hexValue? c)
    match missing with
    | 0 => return (text ⟨'"', long⟩ ((← charOfCode? value) :: chars), [])
    | missing + 1 => return (hex long chars missing value, [])
  | joining chars, c =>
    if isBlank c then some (joining chars, [])
    else if c = '\n' then some (joined chars, [])
    else if c = '\r' then some (joiningCarriage chars, [])
    else none
  | joiningCarriage chars, c => afterCarriage (joined chars) [] c
  | joined chars, c =>
    if isBlank c || c == '\n' then some (joined chars, [])
    else if c = '\r' then some (joinedCarriage chars, [])
    else inText ⟨'"', true⟩ chars c
  | joinedCarriage chars, c => afterCarriage (joined chars) [] c

def finish : Scan → Option (List Token)
  | between => some []
  | comment => some []
  | bare word => some [.bare word.reverse]
  | opened _ => some [stringToken [] false]
  | closing mark chars count =>
    if count < 3 then none
    else some [stringToken (List.replicate (count - 3) mark ++ chars) true]
  | _ => none

end Scan

/-! ## Tokens of a text -/

/-- Adds a token to those before it, which come last first. A time of day after a date and one space
makes one word with them. -/
def pushToken (before : List Token) (token : Token) : List Token :=
  match token, before with
  | .bare time, .blank ' ' :: .bare date :: earlier =>
    match Date.take? date with
    | some (_, []) =>
      if time.contains ':' then .bare (date ++ 'T' :: time) :: earlier else token :: before
    | _ => token :: before
  | _, _ => token :: before

/-- The tokens of a text. A byte order mark at the start is left out. -/
def tokens? (cs : List Char) : Option (List Token) := do
  let cs := match cs with
    | '\uFEFF' :: rest => rest
    | _ => cs
  let (scan, before) ← cs.foldlM (fun (scan, before) c => do
    let (scan, tokens) ← scan.step c
    return (scan, tokens.foldl pushToken before)) (Scan.between, [])
  return ((← scan.finish).foldl pushToken before).reverse

end NamedQuery.Toml
