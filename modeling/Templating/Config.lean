import Templating.Toml.Printer
import Templating.Toml.Reader

/-!
# Configuration

A configuration is a TOML document with two tables, both of which may be missing: `globals` holds
default data for templates, `output` says how the rendered text is written. Everything else in the
document is passed over.
-/

namespace Templating

structure Config where
  /-- Default data, sorted by name. -/
  globals : List (String × Toml)
  /-- Whether a newline is added to the rendered text. -/
  trailingNewline : Bool
  deriving Inhabited

namespace Config

/-- The name of a configuration file. -/
def fileName : String := "stencil.toml"

def default : Config := ⟨[], false⟩

/-- The table of globals. A date-time is taken for the table that stands for it. -/
def globalsOf : Option Toml.Item → Except Toml.Error (List (String × Toml))
  | none => .ok []
  | some (.table _ entries) => do .ok (Fields.ofList (← Toml.Item.entryValues entries))
  | some (.scalar (.dateTime d)) => .ok [(Toml.dateTimeName, .string d.print)]
  | some _ => .error .wrongType

def booleanOf : Option Toml.Item → Except Toml.Error Bool
  | none => .ok false
  | some (.scalar (.boolean b)) => .ok b
  | some _ => .error .wrongType

/-- The option of the output table. An array gives it as its first item; a date-time, as the table
that stands for it, gives none. -/
def trailingNewlineOf : Option Toml.Item → Except Toml.Error Bool
  | none => .ok false
  | some (.table _ entries) => booleanOf (entries.lookup "trailing_newline")
  | some (.array items) => booleanOf items.head?
  | some (.scalar (.dateTime _)) => .ok false
  | some _ => .error .wrongType

def parse (text : String) : Except Toml.Error Config := do
  let entries ← Toml.Reader.document text.toList
  let globals ← globalsOf (entries.lookup "globals")
  let trailingNewline ← trailingNewlineOf (entries.lookup "output")
  .ok ⟨globals, trailingNewline⟩

def toToml (config : Config) : String :=
  let output : Toml.PrintedSection := ⟨"[output]".toList,
    [Toml.assignment "trailing_newline" (Toml.valueText (.boolean config.trailingNewline))]⟩
  String.ofList (Toml.sectionsText (Toml.sections ["globals"] false (.table config.globals) ++ [output]))

/-- The globals as JSON data. -/
def globalsJson (config : Config) : List (String × Json) := Toml.fieldsJson config.globals

def equals (config other : Config) : Bool :=
  Toml.equalFields config.globals other.globals &&
    config.trailingNewline == other.trailingNewline

end Config

end Templating
