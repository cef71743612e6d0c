import NamedQuery.CommandLine.Commands

/-! # The program

Command lines on the files of the machine. -/

namespace NamedQuery.CommandLine

def fileProblem (error : IO.Error) : FileProblem :=
  match error with
  | .noFileOrDirectory .. => .notFound
  | .inappropriateType _ 21 _ => .isDirectory
  | .inappropriateType _ 20 _ => .notDirectory
  | _ => .other (toString error)

def machine : FileAccess IO where
  read path := do
    try return .ok (← IO.FS.readFile path)
    catch error => return .error (fileProblem error)
  isThere path := do
    try
      let _ ← IO.FS.realPath path
      return true
    catch _ => return false

def defaultPath : IO (Option String) := do
  let directory ← match ← IO.getEnv "XDG_CONFIG_HOME" with
    | some directory => if Path.isRelative directory then home else pure (some directory)
    | none => home
  return directory.map (Path.join · "get/config.toml")
where
  home : IO (Option String) := do
    return (← IO.getEnv "HOME").map (Path.join · ".config")

end NamedQuery.CommandLine

open NamedQuery.CommandLine in
def main (arguments : List String) : IO UInt32 := do
  match Arguments.ofList? (← IO.getEnv "GET_CONFIG") arguments with
  | none =>
    IO.eprintln "Usage: get [--config FILE] [--fixture FILE] explain|run|symbols ..."
    return usageExitCode.toUInt32
  | some arguments =>
    let report ← execute machine (← defaultPath) arguments
    IO.print report.output
    IO.eprint report.errorOutput
    return report.exitCode.toUInt32
