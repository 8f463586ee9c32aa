import Templating.Json.Printer
import Templating.Json.Skip
import Templating.RuntimeError

/-!
# Diagnostics

A diagnostic is a reported failure or warning: a stable code, a severity, a message and notes. It is
shown as text, `Diagnostic.toText`, or as one line of JSON, `Diagnostic.toJson`, which
`Diagnostic.parse` reads back. When it is read, members may stand in any order, unknown ones are
passed over and an array of the members' values does as well. A member is checked as soon as it is
reached.
-/

namespace Templating

inductive Severity where
  | error
  | warning
  deriving DecidableEq, Repr

def Severity.name : Severity → String
  | .error => "error"
  | .warning => "warning"

def Severity.all : List Severity := [.error, .warning]

structure Diagnostic where
  code : String
  severity : Severity
  message : String
  notes : List String
  deriving DecidableEq, Repr

namespace Diagnostic

def isError (diagnostic : Diagnostic) : Bool := diagnostic.severity == .error

/-- One line for the diagnostic and one for each note. -/
def toText (diagnostic : Diagnostic) : String :=
  diagnostic.severity.name ++ "[" ++ diagnostic.code ++ "]: " ++ diagnostic.message ++ "\n" ++
    String.join (diagnostic.notes.map fun note => "   = note: " ++ note ++ "\n")

/-- The JSON form. The member `notes` is left out if there are none. -/
def json (diagnostic : Diagnostic) : Json :=
  .object ([
    ("code", .string diagnostic.code),
    ("severity", .string diagnostic.severity.name),
    ("message", .string diagnostic.message)] ++
    (if diagnostic.notes = [] then []
      else [("notes", .array (diagnostic.notes.map fun note =>
        .object [("message", .string note)]))]))

def toJson (diagnostic : Diagnostic) : String := diagnostic.json.print

/-- The diagnostic of a failed evaluation. An advice becomes a note. -/
def ofRuntimeError (error : RuntimeError) : Diagnostic :=
  ⟨error.code, .error, error.message, error.help?.toList⟩

/-! ## Reading -/

open Json.Reader

/-- A string, where nothing else may stand. -/
def readString (expected : String) (cs : List Char) : Except Json.Error (Read String) :=
  match skipBlank cs with
  | [] => fail .endInValue
  | c :: rest => if c = '"' then string rest else .error (unexpected expected c rest)

/-- The severity of a given name. -/
def severityOfName (name : String) : Except Json.Error Severity :=
  match Severity.all.find? fun severity => severity.name == name with
  | some severity => .ok severity
  | none => .error (.shape (.unknownVariant name (Severity.all.map Severity.name)))

/-- The end of an object whose only member has been read. -/
def closeSingle (cs : List Char) : Except Json.Error (List Char) :=
  match skipBlank cs with
  | [] => fail .endInObject
  | c :: rest => if c = '\x7d' then .ok rest else fail .expectedValue

/-- The value null, where nothing else may stand. -/
def readNull (cs : List Char) : Except Json.Error (List Char) :=
  match skipBlank cs with
  | [] => fail .endInValue
  | c :: rest =>
    if c = 'n' then word ['u', 'l', 'l'] rest else .error (unexpected "unit" c rest)

/-- The name of an object's only member. -/
def readOnlyName (cs : List Char) : Except Json.Error (Read String) :=
  match skipBlank cs with
  | [] => fail .endInObject
  | c :: rest =>
    if c = '"' then string rest
    else if c = '\x7d' then fail .expectedValue
    else fail .keyNotString

/-- A severity is written as its name, or as an object whose only member has that name and is
null. -/
def readSeverity (cs : List Char) : Except Json.Error (Read Severity) :=
  match skipBlank cs with
  | [] => fail .endInValue
  | c :: rest =>
    if c = '"' then do
      let (name, rest) ← string rest
      .ok (← severityOfName name, rest)
    else if c = '\x7b' then do
      let (name, rest) ← readOnlyName rest
      let severity ← severityOfName name
      let rest ← readNull (← colon rest)
      .ok (severity, ← closeSingle rest)
    else fail .expectedValue

/-- The members of a note up to the end of the object, after the message seen so far. -/
def noteMembers : Nat → Bool → Option String → List Char → Except Json.Error (Read String)
  | 0, _, _, _ => fail .endInObject
  | fuel + 1, first, seen, cs => do
    match ← nextMember first cs with
    | .close rest =>
      match seen with
      | some message => .ok (message, rest)
      | none => .error (.shape (.missingField "message"))
    | .member name rest =>
      if name = "message" then
        match seen with
        | some _ => .error (.shape (.duplicateField "message"))
        | none => do
          let (message, rest) ← readString "a string" (← colon rest)
          noteMembers fuel false (some message) rest
      else noteMembers fuel false seen (← skipValue (← colon rest))

/-- A note is an object or an array that holds its message. -/
def readNote (cs : List Char) : Except Json.Error (Read String) :=
  match skipBlank cs with
  | [] => fail .endInValue
  | c :: rest =>
    if c = '\x7b' then noteMembers (rest.length + 1) true none rest
    else if c = '[' then do
      match ← nextItem true rest with
      | .close _ => .error (.shape (.wrongLength 0 "struct Note with 1 element"))
      | .item rest =>
        let (message, rest) ← readString "a string" rest
        .ok (message, ← closeList rest)
    else .error (unexpected "struct Note" c rest)

def readNotes (cs : List Char) : Except Json.Error (Read (List String)) :=
  match skipBlank cs with
  | [] => fail .endInValue
  | c :: rest =>
    if c = '[' then listItems readNote (rest.length + 1) true rest
    else .error (unexpected "a sequence" c rest)

/-- The members of a diagnostic that have been read. -/
structure Draft where
  code : Option String
  severity : Option Severity
  message : Option String
  notes : Option (List String)

/-- Nothing has been read. -/
def Draft.empty : Draft := ⟨none, none, none, none⟩

/-- The diagnostic of a draft. The first member missing is reported; notes may be missing. -/
def Draft.finish (draft : Draft) : Except Json.Error Diagnostic :=
  match draft.code, draft.severity, draft.message with
  | none, _, _ => .error (.shape (.missingField "code"))
  | _, none, _ => .error (.shape (.missingField "severity"))
  | _, _, none => .error (.shape (.missingField "message"))
  | some code, some severity, some message =>
    .ok ⟨code, severity, message, draft.notes.getD []⟩

/-- Refuses a member that has been read before. -/
def once {α : Type} (name : String) (seen : Option α) : Except Json.Error Unit :=
  match seen with
  | some _ => .error (.shape (.duplicateField name))
  | none => .ok ()

/-- Reads the value of a member after its name. Unknown members are passed over. -/
def readMember (draft : Draft) (name : String) (cs : List Char) :
    Except Json.Error (Read Draft) := do
  if name = "code" then
    once name draft.code
    let (code, rest) ← readString "a string" (← colon cs)
    .ok ({ draft with code := some code }, rest)
  else if name = "severity" then
    once name draft.severity
    let (severity, rest) ← readSeverity (← colon cs)
    .ok ({ draft with severity := some severity }, rest)
  else if name = "message" then
    once name draft.message
    let (message, rest) ← readString "a string" (← colon cs)
    .ok ({ draft with message := some message }, rest)
  else if name = "notes" then
    once name draft.notes
    let (notes, rest) ← readNotes (← colon cs)
    .ok ({ draft with notes := some notes }, rest)
  else .ok (draft, ← skipValue (← colon cs))

/-- The members of a diagnostic up to the end of the object. -/
def readMembers : Nat → Bool → Draft → List Char → Except Json.Error (Read Diagnostic)
  | 0, _, _, _ => fail .endInObject
  | fuel + 1, first, draft, cs => do
    match ← nextMember first cs with
    | .close rest => .ok (← draft.finish, rest)
    | .member name rest =>
      let (draft, rest) ← readMember draft name rest
      readMembers fuel false draft rest

/-- A value of a diagnostic that is written as an array, of which `index` values have gone
before. -/
def readItem {α : Type} (read : List Char → Except Json.Error (Read α)) (index : Nat)
    (cs : List Char) : Except Json.Error (Read α) := do
  match ← nextItem (index == 0) cs with
  | .close _ =>
    .error (.shape (.wrongLength index "struct Diagnostic with 4 elements"))
  | .item rest => read rest

/-- The values of a diagnostic that is written as an array. -/
def readItems (cs : List Char) : Except Json.Error (Read Diagnostic) := do
  let (code, rest) ← readItem (readString "a string") 0 cs
  let (severity, rest) ← readItem readSeverity 1 rest
  let (message, rest) ← readItem (readString "a string") 2 rest
  match ← nextItem false rest with
  | .close rest => .ok (⟨code, severity, message, []⟩, rest)
  | .item rest =>
    let (notes, rest) ← readNotes rest
    .ok (⟨code, severity, message, notes⟩, ← closeList rest)

def read (cs : List Char) : Except Json.Error (Read Diagnostic) :=
  match skipBlank cs with
  | [] => fail .endInValue
  | c :: rest =>
    if c = '\x7b' then readMembers (rest.length + 1) true Draft.empty rest
    else if c = '[' then readItems rest
    else .error (unexpected "struct Diagnostic" c rest)

/-- Reads a text that holds one diagnostic. -/
def parse (text : String) : Except Json.Error Diagnostic := do
  let (diagnostic, rest) ← read text.toList
  finish rest
  .ok diagnostic

end Diagnostic

end Templating
