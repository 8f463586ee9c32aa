import Templating.CommandLine.Arguments
import Templating.CommandLine.FileSystem
import Templating.Explanation
import Templating.Path
import Templating.Report
import Templating.Text.Case

/-!
# Commands

`Arguments.run` carries a command out on a file system. A rendering reads the configuration, then
the template, then the data, and writes its text only after everything else has succeeded.
-/

namespace Templating.CommandLine

/-- What a command leaves behind beside files and a rendered text. -/
structure Outcome where
  exitCode : Nat
  /-- The text on standard output, after a rendered text. -/
  output : String
  /-- The text on standard error. -/
  errors : String
  deriving DecidableEq, Repr

section

variable {m : Type → Type} [Monad m] (files : FileSystem m)

def loadText (path : String) : ExceptT LoadError m String := do
  match ← files.read path with
  | .ok text => return text
  | .error error => throw (.file path error)

def loadAst (path : String) : ExceptT LoadError m Node := do
  ExceptT.mk (pure (parseAst (← loadText files path) path))

/-- Data are TOML if the name of the file says so, JSON otherwise. -/
def loadData (path : String) : ExceptT LoadError m Data := do
  let text ← loadText files path
  ExceptT.mk (pure (parseData text (Path.hasExtension path "toml") path))

def loadConfig (path : String) : ExceptT LoadError m Config := do
  ExceptT.mk (pure (parseConfig (← loadText files path) path))

/-- The first path that leads to a file. -/
def firstFile? : List String → m (Option String)
  | [] => return none
  | path :: rest => do
    if ← files.isFile path then return some path else firstFile? rest

/-- The configuration file beside a template, else the one in the working directory. -/
def findConfig? (ast : String) : m (Option String) := do
  let working ← files.workingDirectory
  let directories := (Path.parent? ast).toList ++ working.toList
  firstFile? files (directories.map (Path.join · Config.fileName))

/-- The configuration of a template: the one that is given, else the one that is found, else the
default. -/
def configFor (ast : String) (given : Option String) : ExceptT LoadError m Config := do
  match given with
  | some path => loadConfig files path
  | none =>
    match ← ExceptT.lift (findConfig? files ast) with
    | some path => loadConfig files path
    | none => return Config.default

/-- The name of standard output in messages. -/
def consoleName : String := "<stdout>"

/-- Writes a text to a file if one is given, else to standard output. -/
def writeText (output : Option String) (text : String) : ExceptT LoadError m Unit := do
  match output with
  | some path =>
    match ← files.write path text with
    | .ok () => return ()
    | .error error => throw (.file path error)
  | none =>
    match ← files.print text with
    | .ok () => return ()
    | .error error => throw (.file consoleName error)

/-- Renders a template and writes the text. -/
def renderFile (ast : String) (data config output : Option String) :
    ExceptT LoadError m Unit := do
  let config ← configFor files ast config
  let program ← loadAst files ast
  let data ←
    match data with
    | some path => some <$> loadData files path
    | none => pure none
  writeText files output (← ExceptT.mk (pure (renderConfigured config data program)))

end

/-- A diagnostic as it is written for the reader, or as a line of JSON. -/
def diagnosticText (json : Bool) (diagnostic : Diagnostic) : String :=
  if json then diagnostic.toJson ++ "\n" else diagnostic.toText

/-- The outcome of a command that has failed. -/
def failed (json quiet : Bool) (error : LoadError) : Outcome :=
  ⟨1, "", if quiet then "" else diagnosticText json (Diagnostic.ofLoadError error)⟩

/-- The outcome of checking a template. A warning is never suppressed. -/
def checked (json : Bool) (path : String) (program : Node) : Outcome :=
  let report := Report.ofNode program
  ⟨0, if json then report.toJson ++ "\n" else report.toText path,
    match report.warning? with
    | some warning => diagnosticText json warning
    | none => ""⟩

/-- The outcome of explaining an error code, which may be written in any case. -/
def explained (code : String) : Outcome :=
  match explain? (Text.upper code) with
  | some text => ⟨0, text ++ "\n", ""⟩
  | none => ⟨1, "", "Unknown error code: " ++ code ++ "\n\n" ++ textOfLines [
      "Valid error codes:",
      "  E5xxx  Evaluation errors (E5001-E5012)",
      "  E6xxx  Input loading errors (E6001-E6004)"]⟩

/-- Carries out a command. -/
def Arguments.run {m : Type → Type} [Monad m] (files : FileSystem m) (arguments : Arguments) :
    m Outcome := do
  match arguments.command with
  | .render ast data config output =>
    match ← (renderFile files ast data config output).run with
    | .ok () => return ⟨0, "", ""⟩
    | .error error => return failed arguments.json arguments.quiet error
  | .check ast =>
    match ← (loadAst files ast).run with
    | .ok program => return checked arguments.json ast program
    | .error error => return failed arguments.json arguments.quiet error
  | .explain code => return explained code

/-- Carries out a command on a directory in memory. What it writes to the devices of the standard
streams is part of the outcome. -/
def Arguments.runIn (directory : Directory) (arguments : Arguments) : Outcome × Directory :=
  let (outcome, after) := (arguments.run Directory.fileSystem).run directory
  (⟨outcome.exitCode, after.output ++ outcome.output, after.errors ++ outcome.errors⟩, after)

end Templating.CommandLine
