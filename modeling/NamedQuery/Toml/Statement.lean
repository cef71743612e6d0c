import NamedQuery.Toml.Scalar
import NamedQuery.Toml.Token

/-! # Statements of TOML

A TOML text is a list of statements, one to a line: an entry gives a key its value, and a header says
where the entries after it belong. Statements are read off the tokens by a machine that takes in one
token at a time (`State.step`). What statements mean together is not decided here. -/

namespace NamedQuery.Toml

/-- The names of a key, from the outside in. -/
abbrev Key := List String

inductive Node where
  | scalar (s : Scalar)
  | array (items : List Node)
  | inline (entries : List (Key × Node))

inductive Statement where
  | entry (key : Key) (value : Node)
  /-- The header of a table. -/
  | table (path : Key)
  /-- The header of one more table in an array of tables. -/
  | element (path : Key)

/-! ## Keys -/

/-- A key has fewer names than this. -/
def maxNames : Nat := 80

/-- A key under way: its names, last first, and whether a name comes next. -/
structure KeyScan where
  names : List String
  wantsName : Bool

namespace KeyScan

def start : KeyScan := ⟨[], true⟩

def isNameChar (c : Char) : Bool := c.isAlphanum || c == '_' || c == '-'

def name? (scan : KeyScan) (name : String) : Option KeyScan :=
  if scan.wantsName then some ⟨name :: scan.names, false⟩ else none

def dot? (scan : KeyScan) : Option KeyScan :=
  if scan.wantsName then none else some ⟨scan.names, true⟩

/-- Takes in a piece of a bare word between two dots. -/
def piece? (scan : KeyScan) (piece : List Char) : Option KeyScan :=
  if piece.isEmpty then some scan
  else if piece.all isNameChar then scan.name? (String.ofList piece)
  else none

def step (scan : KeyScan) : Token → Option KeyScan
  | .blank _ => some scan
  | .string text false => scan.name? text
  | .bare word => do
    match word.splitOnP (· == '.') with
    | [] => some scan
    | piece :: pieces =>
      pieces.foldlM (fun scan piece => do (← scan.dot?).piece? piece) (← scan.piece? piece)
  | _ => none

def key? (scan : KeyScan) : Option Key :=
  if scan.wantsName ∨ maxNames ≤ scan.names.length then none else some scan.names.reverse

end KeyScan

/-! ## The machine -/

/-- A container that waits for its next value. What came last stands first. -/
inductive Frame where
  | array (items : List Node)
  | inline (entries : List (Key × Node)) (key : Key)

/-- Where a value belongs: the key of its statement, and the containers around it from the inside
out. -/
structure Position where
  key : Key
  frames : List Frame

inductive State where
  | lineStart
  | entryKey (scan : KeyScan)
  /-- After a bracket at the start of a line. -/
  | bracket
  | tablePath (scan : KeyScan)
  | elementPath (scan : KeyScan)
  /-- After the first of two closing brackets. -/
  | elementClose (path : Key)
  | value (position : Position)
  /-- In an array, where an item or the closing bracket may come. -/
  | itemStart (items : List Node) (outer : Position)
  | itemEnd (items : List Node) (outer : Position)
  /-- After an opening brace. -/
  | inlineStart (outer : Position)
  | inlineKey (entries : List (Key × Node)) (scan : KeyScan) (outer : Position)
  | inlineEnd (entries : List (Key × Node)) (outer : Position)
  /-- After a statement. -/
  | lineRest

namespace State

/-- Puts a finished value where it belongs; if that completes a statement, the statement comes
out. -/
def place (node : Node) : Position → State × List Statement
  | ⟨key, []⟩ => (lineRest, [.entry key node])
  | ⟨key, .array items :: frames⟩ => (itemEnd (node :: items) ⟨key, frames⟩, [])
  | ⟨key, .inline entries name :: frames⟩ => (inlineEnd ((name, node) :: entries) ⟨key, frames⟩, [])

def begin (position : Position) : Token → Option (State × List Statement)
  | .bare word => (Scalar.ofBare? word).map fun s => place (.scalar s) position
  | .string text _ => some (place (.scalar (.string text)) position)
  | .openBracket => some (itemStart [] position, [])
  | .openBrace => some (inlineStart position, [])
  | _ => none

def inside (frame : Frame) (outer : Position) : Position :=
  ⟨outer.key, frame :: outer.frames⟩

/-- Takes in a token; the statement that it completes comes out. -/
def step : State → Token → Option (State × List Statement)
  | lineStart, .blank _ => some (lineStart, [])
  | lineStart, .lineEnd => some (lineStart, [])
  | lineStart, .openBracket => some (bracket, [])
  | lineStart, token => (KeyScan.start.step token).map fun scan => (entryKey scan, [])
  | entryKey scan, .equals => scan.key?.map fun name => (value ⟨name, []⟩, [])
  | entryKey scan, token => (scan.step token).map fun scan => (entryKey scan, [])
  | bracket, .openBracket => some (elementPath .start, [])
  | bracket, token => (KeyScan.start.step token).map fun scan => (tablePath scan, [])
  | tablePath scan, .closeBracket => scan.key?.map fun path => (lineRest, [.table path])
  | tablePath scan, token => (scan.step token).map fun scan => (tablePath scan, [])
  | elementPath scan, .closeBracket => scan.key?.map fun path => (elementClose path, [])
  | elementPath scan, token => (scan.step token).map fun scan => (elementPath scan, [])
  | elementClose path, .closeBracket => some (lineRest, [.element path])
  | value position, .blank _ => some (value position, [])
  | value position, token => begin position token
  | itemStart items outer, .blank _ => some (itemStart items outer, [])
  | itemStart items outer, .lineEnd => some (itemStart items outer, [])
  | itemStart items outer, .closeBracket => some (place (.array items.reverse) outer)
  | itemStart items outer, token => begin (inside (.array items) outer) token
  | itemEnd items outer, .blank _ => some (itemEnd items outer, [])
  | itemEnd items outer, .lineEnd => some (itemEnd items outer, [])
  | itemEnd items outer, .comma => some (itemStart items outer, [])
  | itemEnd items outer, .closeBracket => some (place (.array items.reverse) outer)
  | inlineStart outer, .blank _ => some (inlineStart outer, [])
  | inlineStart outer, .closeBrace => some (place (.inline []) outer)
  | inlineStart outer, token =>
    (KeyScan.start.step token).map fun scan => (inlineKey [] scan outer, [])
  | inlineKey entries scan outer, .equals =>
    scan.key?.map fun name => (value (inside (.inline entries name) outer), [])
  | inlineKey entries scan outer, token =>
    (scan.step token).map fun scan => (inlineKey entries scan outer, [])
  | inlineEnd entries outer, .blank _ => some (inlineEnd entries outer, [])
  | inlineEnd entries outer, .comma => some (inlineKey entries .start outer, [])
  | inlineEnd entries outer, .closeBrace => some (place (.inline entries.reverse) outer)
  | lineRest, .blank _ => some (lineRest, [])
  | lineRest, .lineEnd => some (lineStart, [])
  | _, _ => none

def isComplete : State → Bool
  | lineStart => true
  | lineRest => true
  | _ => false

end State

def statements? (tokens : List Token) : Option (List Statement) := do
  let (state, statements) ← tokens.foldlM (fun (state, statements) token => do
    let (state, complete) ← State.step state token
    return (state, complete ++ statements)) (State.lineStart, [])
  if state.isComplete then some statements.reverse else none

end NamedQuery.Toml
