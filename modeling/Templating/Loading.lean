import Templating.Config
import Templating.Diagnostic
import Templating.Node.Json
import Templating.Renderer

/-!
# Loading templates and data

* `parseAst` and `parseData` read the two inputs of a rendering; `origin` names where a text comes
  from.
* `mergeData` lays one set of data over another.
* `renderJson` renders a tree given as JSON against data given as JSON, `renderConfigured` a tree
  against the defaults of a configuration and further data.
-/

namespace Templating

/-- Why a file cannot be read or written. -/
inductive FileError where
  | notFound
  | isDirectory
  | notDirectory
  | nameTooLong
  /-- The path holds the character that ends a path. -/
  | nulInName
  | noSpace
  | notText
  /-- Any other failure, in the words of the system. -/
  | other (message : String)
  deriving DecidableEq, Repr

def FileError.message : FileError → String
  | .notFound => "No such file or directory (os error 2)"
  | .isDirectory => "Is a directory (os error 21)"
  | .notDirectory => "Not a directory (os error 20)"
  | .nameTooLong => "File name too long (os error 36)"
  | .nulInName => "file name contained an unexpected NUL byte"
  | .noSpace => "No space left on device (os error 28)"
  | .notText => "stream did not contain valid UTF-8"
  | .other message => message

/-- Why a text is not template data. -/
inductive DataError where
  | json (error : Json.Error)
  | toml (error : Toml.Error)
  /-- The outermost value is not an object. -/
  | notObject (kind : String)
  deriving DecidableEq, Repr

def DataError.message : DataError → String
  | .json error => error.message
  | .toml error => error.message
  | .notObject kind => "top-level data must be an object, got " ++ kind

/-- Why inputs cannot be loaded or rendered. -/
inductive LoadError where
  | file (path : String) (error : FileError)
  | ast (origin : String) (error : Json.Error)
  | data (origin : String) (error : DataError)
  | config (origin : String) (error : Toml.Error)
  | runtime (error : RuntimeError)
  deriving DecidableEq

namespace LoadError

def message : LoadError → String
  | file path error => "failed to read " ++ path ++ ": " ++ error.message
  | ast origin error => "invalid AST in " ++ origin ++ ": " ++ error.message
  | data origin error => "invalid data in " ++ origin ++ ": " ++ error.message
  | config origin error => "invalid config in " ++ origin ++ ": " ++ error.message
  | runtime error => error.message

def code : LoadError → String
  | file .. => "E6001"
  | ast .. => "E6002"
  | data .. => "E6003"
  | config .. => "E6004"
  | runtime error => error.code

def tag : LoadError → String
  | file .. => "stencil::io"
  | ast .. => "stencil::invalid_ast"
  | data .. => "stencil::invalid_data"
  | config .. => "stencil::invalid_config"
  | runtime error => error.tag

def help? : LoadError → Option String
  | runtime error => error.help?
  | _ => none

end LoadError

def Diagnostic.ofLoadError : LoadError → Diagnostic
  | .runtime error => ofRuntimeError error
  | error => ⟨error.code, .error, error.message, []⟩

/-- The members of JSON data, sorted by name. -/
abbrev Data := List (String × Json)

def parseAst (text origin : String) : Except LoadError Node :=
  match Node.parse text with
  | .ok node => .ok node
  | .error error => .error (.ast origin error)

/-- Template data from a JSON text. -/
def parseJsonData (text : String) : Except DataError Data :=
  match Json.parse text with
  | .error error => .error (.json error)
  | .ok json =>
    match json.canonical with
    | .object members => .ok members
    | other => .error (.notObject other.kindName)

/-- Template data from a TOML text. -/
def parseTomlData (text : String) : Except DataError Data :=
  match Toml.parse text with
  | .error error => .error (.toml error)
  | .ok fields => .ok (Toml.fieldsJson fields)

def parseData (text : String) (isToml : Bool) (origin : String) : Except LoadError Data :=
  match if isToml then parseTomlData text else parseJsonData text with
  | .ok data => .ok data
  | .error error => .error (.data origin error)

/-- Lays the members of `top` over those of `base`. -/
def mergeData (base top : Data) : Data := Fields.insertAll base top

/-- Turns a failed evaluation into a failed loading. -/
def orRuntimeError {α : Type} : Except RuntimeError α → Except LoadError α
  | .ok value => .ok value
  | .error error => .error (.runtime error)

/-- The text of a program in a global scope that binds the members of some data. -/
def renderData (program : Node) (data : Data) : Except LoadError String :=
  orRuntimeError ((Renderer.empty.insertAll data).render Natives.none program)

def renderJson (ast data : String) : Except LoadError String := do
  let program ← parseAst ast "<ast>"
  let data ← parseData data false "<data>"
  renderData program data

/-- Renders a program with the defaults of a configuration, over which data may be laid. -/
def renderConfigured (config : Config) (data : Option Data) (program : Node) :
    Except LoadError String := do
  let text ← renderData program (mergeData config.globalsJson (data.getD []))
  .ok (if config.trailingNewline then text ++ "\n" else text)

/-- Reads a configuration. -/
def parseConfig (text origin : String) : Except LoadError Config :=
  match Config.parse text with
  | .ok config => .ok config
  | .error error => .error (.config origin error)

end Templating
