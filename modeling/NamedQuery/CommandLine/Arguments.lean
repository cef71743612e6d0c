/-! # Command line arguments

A command line is a command with its own arguments; before the command only the options for
settings may stand, which may also stand after it. Arguments are read from left to right by `Scan`,
and then gathered. Anything out of order makes the whole line invalid. -/

namespace NamedQuery.CommandLine

/-! ## Options -/

inductive OptionName where
  | config
  | fixture
  | option
  | strict
  | format
deriving DecidableEq

inductive CommandName where
  | explain
  | run
  | symbols
deriving DecidableEq

def CommandName.ofText? (text : String) : Option CommandName :=
  if text = "explain" then some .explain
  else if text = "run" then some .run
  else if text = "symbols" then some .symbols
  else none

def OptionName.takesValue (name : OptionName) : Bool := name ≠ .strict

/-- Where options may stand: before all commands if there is none. -/
def OptionName.isAllowed (name : OptionName) (command : Option CommandName) : Bool :=
  match name with
  | .config => true
  | .fixture => true
  | .option => command = some .explain || command = some .run
  | .strict => command = some .run
  | .format => command = some .run

def OptionName.ofLong? (text : String) : Option OptionName :=
  if text = "config" then some .config
  else if text = "fixture" then some .fixture
  else if text = "option" then some .option
  else if text = "strict" then some .strict
  else if text = "format" then some .format
  else none

def OptionName.ofShort? (c : Char) : Option OptionName :=
  if c = 'o' then some .option else if c = 'f' then some .format else none

/-! ## Single arguments -/

inductive Form where
  /-- Two dashes, after which every argument is plain. -/
  | separator
  /-- An option, with the value attached to it if there is one. -/
  | option (name : OptionName) (value : Option String)
  | plain (text : String)
  | unknown
deriving DecidableEq

/-- A text up to the first equals sign, and what follows the sign if there is one. -/
def splitEquals (cs : List Char) : String × Option String :=
  match cs.dropWhile (· ≠ '=') with
  | [] => (String.ofList cs, none)
  | _ :: rest => (String.ofList (cs.takeWhile (· ≠ '=')), some (String.ofList rest))

/-- The value attached to a short option; an equals sign in front of it does not count. -/
def attached? : List Char → Option String
  | [] => none
  | '=' :: rest => some (String.ofList rest)
  | cs => some (String.ofList cs)

/-- The form of an argument. A single dash is plain. -/
def Form.read (argument : String) : Form :=
  match argument.toList with
  | ['-', '-'] => .separator
  | '-' :: '-' :: rest =>
    let (name, value) := splitEquals rest
    match OptionName.ofLong? name with
    | some name => .option name value
    | none => .unknown
  | '-' :: c :: rest =>
    match OptionName.ofShort? c with
    | some name => .option name (attached? rest)
    | none => .unknown
  | _ => .plain argument

/-! ## Scanning -/

inductive Item where
  | flag (name : OptionName)
  | value (name : OptionName) (text : String)
  | plain (text : String)
deriving DecidableEq

/-- What has been read of a command line: the command, the items before it and after it, last
first, and an option that waits for its value. -/
structure Scan where
  command : Option CommandName
  outer : List Item
  inner : List Item
  pending : Option OptionName
  isPlainOnly : Bool

namespace Scan

def start : Scan := ⟨none, [], [], none, false⟩

def push (scan : Scan) (item : Item) : Scan :=
  match scan.command with
  | none => { scan with outer := item :: scan.outer }
  | some _ => { scan with inner := item :: scan.inner }

/-- Takes in a plain argument: the command if there is none yet. -/
def plain? (scan : Scan) (text : String) : Option Scan :=
  match scan.command with
  | some _ => some (scan.push (.plain text))
  | none =>
    if scan.isPlainOnly then none
    else (CommandName.ofText? text).map fun name => { scan with command := some name }

def option? (scan : Scan) (name : OptionName) (value : Option String) : Option Scan :=
  if !name.isAllowed scan.command then none
  else
    match name.takesValue, value with
    | true, some text => some (scan.push (.value name text))
    | true, none => some { scan with pending := some name }
    | false, none => some (scan.push (.flag name))
    | false, some _ => none

def step (scan : Scan) (argument : String) : Option Scan :=
  if scan.isPlainOnly then scan.plain? argument
  else
    match scan.pending, Form.read argument with
    | some name, .plain text => some ({ scan with pending := none }.push (.value name text))
    | some _, _ => none
    | none, .plain text => scan.plain? text
    | none, .separator => some { scan with isPlainOnly := true }
    | none, .option name value => scan.option? name value
    | none, .unknown => none

end Scan

/-! ## Gathering -/

def valuesOf (name : OptionName) (items : List Item) : List String :=
  items.filterMap fun item =>
    match item with
    | .value other text => if other = name then some text else none
    | _ => none

def plainOf (items : List Item) : List String :=
  items.filterMap fun item =>
    match item with
    | .plain text => some text
    | _ => none

/-- The value of an option that may be given at most once. -/
def single? (name : OptionName) (items : List Item) : Option (Option String) :=
  match valuesOf name items with
  | [] => some none
  | [text] => some (some text)
  | _ => none

/-- The path that an option names, which may not be empty. -/
def path? (name : OptionName) (items : List Item) : Option (Option String) :=
  (single? name items).filter (· ≠ some "")

/-- Whether a flag is set; it may be set only once. -/
def flag? (name : OptionName) (items : List Item) : Option Bool :=
  match items.count (.flag name) with
  | 0 => some false
  | 1 => some true
  | _ => none

inductive Format where
  | table
  | json
deriving DecidableEq

def Format.ofText? (text : String) : Option Format :=
  if text = "table" then some .table else if text = "json" then some .json else none

structure QueryArguments where
  identifier : String
  arguments : List String
  options : List String
deriving DecidableEq

inductive Command where
  | explain (query : QueryArguments)
  | run (query : QueryArguments) (strict : Bool) (format : Format)
  | symbols
deriving DecidableEq

structure Arguments where
  /-- The settings file. -/
  config : Option String
  /-- The fixture, which goes before that of the settings. -/
  fixture : Option String
  command : Command
deriving DecidableEq

def query? (items : List Item) : Option QueryArguments :=
  match plainOf items with
  | [] => none
  | identifier :: arguments => some ⟨identifier, arguments, valuesOf .option items⟩

def command? (name : CommandName) (items : List Item) : Option Command :=
  match name with
  | .explain => (query? items).map .explain
  | .run => do
    let format ← single? .format items
    return .run (← query? items) (← flag? .strict items)
      (← (format.map Format.ofText?).getD (some .table))
  | .symbols => if plainOf items = [] then some .symbols else none

/-- Reads a command line. `fallback` is the settings file that applies where none is named. It is not
looked at if one is named both before and after the command, and else it must not be empty. -/
def Arguments.ofList? (fallback : Option String) (arguments : List String) : Option Arguments := do
  let scan ← arguments.foldlM Scan.step .start
  let name ← scan.command
  if scan.pending.isSome then none
  let outer := scan.outer.reverse
  let inner := scan.inner.reverse
  let outerConfig ← path? .config outer
  let innerConfig ← path? .config inner
  if fallback = some "" ∧ (outerConfig = none ∨ innerConfig = none) then none
  return {
    config := innerConfig <|> outerConfig <|> fallback
    fixture := (← path? .fixture inner) <|> (← path? .fixture outer)
    command := ← command? name inner }

end NamedQuery.CommandLine
