import Templating.CommandLine.Run

/-!
# The command `stencil`

Runs a command line on the files of the machine.
-/

namespace Templating.CommandLine

/-- Whether an error has a number of the system, with either sign. -/
def isCode (code number : UInt32) : Bool := code == number || code == -number

/-- Why an access to a file has failed. -/
def fileErrorOf (error : IO.Error) : FileError :=
  match error with
  | .noFileOrDirectory .. => .notFound
  | .inappropriateType _ code _ => if isCode code 20 then .notDirectory else .isDirectory
  | .invalidArgument _ code _ =>
    if isCode code 36 then .nameTooLong
    else if isCode code 22 then .nulInName
    else .other error.toString
  | .resourceExhausted _ code _ => if isCode code 28 then .noSpace else .other error.toString
  | _ => .other error.toString

/-- The files of the machine. -/
def machineFiles : FileSystem IO where
  read path := do
    match ← (IO.FS.readBinFile path).toBaseIO with
    | .ok content =>
      match String.fromUTF8? content with
      | some text => return .ok text
      | none => return .error .notText
    | .error error => return .error (fileErrorOf error)
  write path text := do
    match ← (IO.FS.writeFile path text).toBaseIO with
    | .ok () => return .ok ()
    | .error error => return .error (fileErrorOf error)
  isFile path := do
    match ← (IO.FS.readBinFile path).toBaseIO with
    | .ok _ => return true
    | .error (.permissionDenied ..) => return true
    | .error _ => return false
  workingDirectory := do
    match ← IO.currentDir.toBaseIO with
    | .ok path => return some path.toString
    | .error _ => return none
  print text := do
    let console ← IO.getStdout
    match ← (do console.putStr text; console.flush : IO Unit).toBaseIO with
    | .ok () => return .ok ()
    | .error error => return .error (fileErrorOf error)

/-- The text of help. -/
def usageText : String := textOfLines [
  "Render template ASTs against JSON or TOML data",
  "",
  "Usage: stencil [--json] [-q] COMMAND",
  "",
  "Commands:",
  "  render AST [-d DATA] [--config CONFIG] [-o OUTPUT]",
  "  check AST",
  "  explain CODE"]

end Templating.CommandLine

open Templating.CommandLine in
def main (args : List String) : IO UInt32 := do
  match Arguments.parse args with
  | .ok arguments =>
    let outcome ← arguments.run machineFiles
    IO.print outcome.output
    IO.eprint outcome.errors
    return outcome.exitCode.toUInt32
  | .error usage =>
    match usage with
    | .help => IO.print usageText
    | .version => IO.println "stencil 0.1.0"
    | _ => IO.eprint usageText
    return usage.exitCode.toUInt32
