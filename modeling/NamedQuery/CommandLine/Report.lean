import NamedQuery.Fault

/-! # Reports

What a command leaves behind: the lines it has printed, and the problem that ended it, if one did. -/

namespace NamedQuery.CommandLine

inductive Problem where
  | fault (fault : Fault)
  /-- The settings file at a path cannot be used. -/
  | notLoaded (path : String) (fault : Fault)
  /-- An option has not the form of a name and a value. -/
  | notKeyValue (option : String)
  | notQuery (identifier : String)
deriving DecidableEq

/-- The wording of a fault together with its cause: for faults of files the cause is said again. -/
def faultText (fault : Fault) : String :=
  match fault with
  | .file problem => fault.message ++ ": " ++ problem.message
  | _ => fault.message

def Problem.message : Problem → String
  | .fault f => faultText f
  | .notLoaded path f => "failed to load " ++ path ++ ": " ++ faultText f
  | .notKeyValue option => "option '" ++ option ++ "' is not key=value"
  | .notQuery identifier => "'" ++ identifier ++ "' is not a query identifier"

structure Report where
  lines : List String
  problem : Option Problem

namespace Report

def ofLines (lines : List String) : Report := ⟨lines, none⟩

def failed (problem : Problem) : Report := ⟨[], some problem⟩

def after (lines : List String) (report : Report) : Report :=
  { report with lines := lines ++ report.lines }

def withValue {α : Type} (value : Except Problem α) (go : α → Report) : Report :=
  match value with
  | .ok x => go x
  | .error problem => failed problem

def output (report : Report) : String :=
  String.join (report.lines.map (· ++ "\n"))

def errorOutput (report : Report) : String :=
  match report.problem with
  | none => ""
  | some problem => "Error: " ++ problem.message ++ "\n"

def exitCode (report : Report) : Nat :=
  if report.problem.isSome then 1 else 0

end Report

def usageExitCode : Nat := 2

end NamedQuery.CommandLine
