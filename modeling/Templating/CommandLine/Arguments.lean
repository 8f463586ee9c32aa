/-!
# Command-line arguments

`Arguments.parse` reads `[FLAGS] COMMAND [ARGUMENTS]`. The flags `--json` and `--quiet` may stand
before the command and after it, each once in either place. The value of an option is attached to it
or is the next argument, which must not look like a flag; after `--` no argument does.

An argument is settled when the next one has been understood, so that of two faults the first to be
settled is reported. An argument that is not understood is reported at once.
-/

namespace Templating.CommandLine

/-- Why a command line is answered without being run. -/
inductive Usage where
  | help
  | version
  /-- The command line is empty. -/
  | nothingGiven
  | missingCommand
  | unknownCommand
  | unknownArgument
  | missingArgument
  /-- An option has no value, or a path is empty. -/
  | invalidValue
  /-- A flag has a value. -/
  | unexpectedValue
  | repeatedArgument
  deriving DecidableEq, Repr

/-- The exit code of a command line that is not run. -/
def Usage.exitCode : Usage → Nat
  | .help | .version => 0
  | _ => 2

inductive Command where
  | render (ast : String) (data config output : Option String)
  | check (ast : String)
  | explain (code : String)
  deriving DecidableEq, Repr

structure Arguments where
  command : Command
  /-- Whether diagnostics are written as JSON. -/
  json : Bool
  /-- Whether failures are not reported. -/
  quiet : Bool
  deriving DecidableEq, Repr

inductive CommandName where
  | render
  | check
  | explain
  | help
  deriving DecidableEq, Repr

def CommandName.ofString? (word : String) : Option CommandName :=
  if word = "render" then some .render
  else if word = "check" then some .check
  else if word = "explain" then some .explain
  else if word = "help" then some .help
  else none

inductive Flag where
  | json
  | quiet
  | help
  | version
  deriving DecidableEq, Repr

/-- What takes a value. -/
inductive Slot where
  | positional
  | data
  | config
  | output
  deriving DecidableEq, Repr

/-- What is given by name. -/
inductive Named where
  | flag (flag : Flag)
  | option (slot : Slot)
  deriving DecidableEq, Repr

/-- The long names. -/
def Named.ofLong? (name : String) : Option Named :=
  if name = "json" then some (.flag .json)
  else if name = "quiet" then some (.flag .quiet)
  else if name = "help" then some (.flag .help)
  else if name = "version" then some (.flag .version)
  else if name = "data" then some (.option .data)
  else if name = "config" then some (.option .config)
  else if name = "output" then some (.option .output)
  else none

/-- The names of one letter. -/
def Named.ofShort? (name : Char) : Option Named :=
  if name = 'q' then some (.flag .quiet)
  else if name = 'h' then some (.flag .help)
  else if name = 'V' then some (.flag .version)
  else if name = 'd' then some (.option .data)
  else if name = 'o' then some (.option .output)
  else none

/-- Where in a command line an argument stands. -/
inductive Level where
  /-- Before the command. -/
  | top
  | within (command : CommandName)
  deriving DecidableEq, Repr

namespace Level

/-- The version is known before the command only, options belong to rendering. -/
def knows : Level → Named → Bool
  | top, .flag _ => true
  | top, .option _ => false
  | within _, .flag flag => flag != .version
  | within command, .option _ => command == .render

/-- Only an error code may be the empty text, a path may not. -/
def takesEmpty (level : Level) : Bool := level == within .explain

end Level

/-- The arguments of one level that have been read. -/
structure Given where
  flags : List Flag
  values : List (Slot × String)
  /-- The argument that is not settled yet. An option may still lack its value. -/
  pending : Option (Slot × Option String)

namespace Given

def empty : Given := ⟨[], [], none⟩

/-- Takes the pending argument over, unless it lacks its value, is a repetition or is empty. -/
def settle (level : Level) (given : Given) : Except Usage Given :=
  match given.pending with
  | none => .ok given
  | some (_, none) => .error .invalidValue
  | some (slot, some value) =>
    if (given.values.lookup slot).isSome then .error .repeatedArgument
    else if value = "" ∧ ¬ level.takesEmpty then .error .invalidValue
    else .ok { given with values := (slot, value) :: given.values, pending := none }

def addFlag (level : Level) (given : Given) (flag : Flag) : Except Usage Given := do
  let given ← given.settle level
  match flag with
  | .help => .error .help
  | .version => .error .version
  | _ =>
    if given.flags.contains flag then .error .repeatedArgument
    else .ok { given with flags := flag :: given.flags }

/-- Adds an option whose value is attached, which settles it, or is still to come. -/
def addOption (level : Level) (given : Given) (slot : Slot) (attached : Option String) :
    Except Usage Given := do
  let given ← given.settle level
  let given := { given with pending := some (slot, attached) }
  match attached with
  | some _ => given.settle level
  | none => .ok given

/-- Whether the positional argument has been given. -/
def hasPositional (given : Given) : Bool :=
  (given.values.lookup .positional).isSome || (given.pending.map (·.1)) == some .positional

/-- Adds a positional argument. There is room for a single one. -/
def addPositional (level : Level) (given : Given) (word : String) : Except Usage Given := do
  if given.hasPositional then .error .unknownArgument
  else
    let given ← given.settle level
    .ok { given with pending := some (.positional, some word) }

/-- Adds `--name` or `--name=value`, given without the dashes. -/
def addLong (level : Level) (given : Given) (word : List Char) : Except Usage Given :=
  let name := String.ofList (word.takeWhile (· != '='))
  let attached :=
    match word.dropWhile (· != '=') with
    | [] => none
    | _ :: value => some (String.ofList value)
  match (Named.ofLong? name).filter level.knows, attached with
  | none, _ => .error .unknownArgument
  | some (.flag _), some _ => .error .unexpectedValue
  | some (.flag flag), none => given.addFlag level flag
  | some (.option slot), attached => given.addOption level slot attached

/-- The value that is attached to an option of one letter, with or without a sign in between. -/
def attachedValue : List Char → Option String
  | [] => none
  | '=' :: value => some (String.ofList value)
  | value => some (String.ofList value)

/-- Adds flags of one letter. An option among them takes the rest for its value. -/
def addShort (level : Level) (given : Given) : List Char → Except Usage Given
  | [] => .ok given
  | c :: rest =>
    match (Named.ofShort? c).filter level.knows with
    | none => .error .unknownArgument
    | some (.flag flag) => do addShort level (← given.addFlag level flag) rest
    | some (.option slot) => given.addOption level slot (attachedValue rest)

/-- Adds a word: the value of an option that waits for one, else a positional argument. -/
def addWord (level : Level) (given : Given) (word : String) : Except Usage Given :=
  match given.pending with
  | some (slot, none) => .ok { given with pending := some (slot, some word) }
  | _ => given.addPositional level word

end Given

/-- How an argument looks. -/
inductive Shape where
  /-- `--` -/
  | escape
  | long (word : List Char)
  | short (word : List Char)
  | word

def Shape.ofArgument (argument : String) : Shape :=
  match argument.toList with
  | ['-', '-'] => .escape
  | '-' :: '-' :: rest => .long rest
  | ['-'] => .word
  | '-' :: rest => .short rest
  | _ => .word

/-- Reads the arguments of a command. -/
def readGiven (level : Level) (given : Given) : List String → Except Usage Given
  | [] => given.settle level
  | argument :: rest =>
    match Shape.ofArgument argument with
    | .escape => do
      let given ← rest.foldlM (fun given word => given.addPositional level word) given
      given.settle level
    | .long word => do readGiven level (← given.addLong level word) rest
    | .short word => do readGiven level (← given.addShort level word) rest
    | .word => do readGiven level (← given.addWord level argument) rest

/-- The command of a given name, unless its positional argument is missing. -/
def commandOf (name : CommandName) (given : Given) : Except Usage Command :=
  match name, given.values.lookup .positional with
  | .help, _ => .error .help
  | _, none => .error .missingArgument
  | .render, some ast => .ok (.render ast (given.values.lookup .data)
      (given.values.lookup .config) (given.values.lookup .output))
  | .check, some ast => .ok (.check ast)
  | .explain, some code => .ok (.explain code)

/-- The answer to a request for help, which may name a command. -/
def helpOn : List String → Usage
  | [] => .help
  | [word] => if (CommandName.ofString? word).isSome then .help else .unknownCommand
  | _ => .unknownCommand

/-- Reads the flags before the command, the command and its arguments. -/
def readTop (given : Given) : List String → Except Usage Arguments
  | [] => .error (if given.flags = [] then .nothingGiven else .missingCommand)
  | argument :: rest =>
    match CommandName.ofString? argument, Shape.ofArgument argument with
    | some .help, _ => .error (helpOn rest)
    | some name, _ => do
      let inner ← readGiven (.within name) Given.empty rest
      let command ← commandOf name inner
      let has := fun flag => given.flags.contains flag || inner.flags.contains flag
      .ok ⟨command, has .json, has .quiet⟩
    | none, .escape =>
      match rest with
      | [] => .error (if given.flags = [] then .nothingGiven else .missingCommand)
      | word :: _ =>
        .error (if (CommandName.ofString? word).isSome then .unknownArgument else .unknownCommand)
    | none, .long word => do readTop (← given.addLong .top word) rest
    | none, .short word => do readTop (← given.addShort .top word) rest
    | none, .word => .error .unknownCommand

def Arguments.parse (arguments : List String) : Except Usage Arguments :=
  readTop Given.empty arguments

end Templating.CommandLine
