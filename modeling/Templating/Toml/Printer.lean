import Templating.Toml.Basic

/-!
# Printing TOML

A table is printed as sections: one for its values, then those of the tables inside it, each under
a header of its own. Within both, the fields stand in the order of their names. An array whose items
are all tables is printed as sections too; a table anywhere else in an array is written between
braces. An array of two or more items has one item on each line.
-/

namespace Templating.Toml

/-! ## Strings and keys -/

/-- The length of the longest run of a character. -/
def longestRun (c : Char) (cs : List Char) : Nat :=
  (cs.foldl (fun (run, longest) d =>
    let run := if d = c then run + 1 else 0
    (run, max longest run)) (0, 0)).2

/-- Whether a character is a control character that must be escaped even between three quotes. -/
def isControl (c : Char) : Bool :=
  (c.toNat < 0x20 && c != '\t' && c != '\n') || c.toNat == 0x7F

/-- The four digits of a code point in an escape. -/
def hexCode (c : Char) : List Char :=
  let ds := (Nat.toDigits 16 c.toNat).map Char.toUpper
  List.replicate (4 - ds.length) '0' ++ ds

/-- A character other than a quote or a line end as it stands in a basic string. -/
def escapeChar (c : Char) : List Char :=
  if c = '\x08' then ['\\', 'b']
  else if c = '\t' then ['\\', 't']
  else if c = '\x0c' then ['\\', 'f']
  else if c = '\r' then ['\\', 'r']
  else if c = '\\' then ['\\', '\\']
  else if isControl c then ['\\', 'u'] ++ hexCode c
  else [c]

/-- The inside of a basic string. Up to `free` quotes in a row stand as they are, of which `run`
have gone before; line ends do so if `multiline` is set. -/
def basicText (multiline : Bool) (free run : Nat) : List Char → List Char
  | [] => []
  | c :: cs =>
    if c = '"' then
      if run < free then '"' :: basicText multiline free (run + 1) cs
      else ['\\', '"'] ++ basicText multiline free 0 cs
    else if c = '\n' then
      (if multiline then ['\n'] else ['\\', 'n']) ++ basicText multiline free 0 cs
    else escapeChar c ++ basicText multiline free 0 cs

def basicString (cs : List Char) : List Char := ['"'] ++ basicText false 0 0 cs ++ ['"']

def literalString (cs : List Char) : List Char := ['\''] ++ cs ++ ['\'']

/-- A string of several lines begins on a line of its own if it holds a line end. -/
def longString (quote : Char) (cs body : List Char) : List Char :=
  let quotes := List.replicate 3 quote
  quotes ++ (if cs.contains '\n' then ['\n'] else []) ++ body ++ quotes

def longBasicString (cs : List Char) : List Char := longString '"' cs (basicText true 2 0 cs)

def longLiteralString (cs : List Char) : List Char := longString '\'' cs cs

/-- The first form of a string that needs no escapes, else a basic string. -/
def stringText (s : String) : List Char :=
  let cs := s.toList
  let hasControl := cs.any isControl
  let hasBackslash := cs.contains '\\'
  let hasNewline := cs.contains '\n'
  let doubles := longestRun '"' cs
  let singles := longestRun '\'' cs
  if !hasControl && !hasBackslash && doubles == 0 && !hasNewline then basicString cs
  else if !hasControl && singles == 0 && !hasNewline then literalString cs
  else if !hasControl && !hasBackslash && doubles ≤ 2 then longBasicString cs
  else if !hasControl && singles ≤ 2 then longLiteralString cs
  else if hasNewline then longBasicString cs
  else basicString cs

def isBareKey (cs : List Char) : Bool :=
  cs != [] && cs.all fun c => c.isAlphanum || c == '-' || c == '_'

def keyText (name : String) : List Char :=
  let cs := name.toList
  let hasControl := cs.any isControl || cs.contains '\n'
  if isBareKey cs then cs
  else if !hasControl && !cs.contains '\\' && !cs.contains '"' then basicString cs
  else if !hasControl && !cs.contains '\'' then literalString cs
  else basicString cs

/-- The parts of a key with points between them. -/
def pathText (path : List String) : List Char := ['.'].intercalate (path.map keyText)

/-! ## Values -/

/-- An array of two or more items has a line for each. -/
def arrayText (items : List (List Char)) : List Char :=
  match items with
  | [] => ['[', ']']
  | [item] => ['['] ++ item ++ [']']
  | items => ['['] ++ items.flatMap (fun item => "\n    ".toList ++ item ++ [',']) ++ ['\n', ']']

def inlineTableText (fields : List (List Char)) : List Char :=
  match fields with
  | [] => ['\x7b', '\x7d']
  | fields => ['\x7b', ' '] ++ [',', ' '].intercalate fields ++ [' ', '\x7d']

/-- A name, an equals sign and a value. -/
def assignment (name : String) (value : List Char) : List Char :=
  keyText name ++ [' ', '=', ' '] ++ value

mutual

/-- A value on the right of an equals sign. -/
def valueText : Toml → List Char
  | string s => stringText s
  | integer n => (toString n).toList
  | float x => (Number.Layout.pointed.print x).toList
  | boolean b => (if b then "true" else "false").toList
  | dateTime d => d.print.toList
  | array items => arrayText (itemTexts items)
  | table fields => inlineTableText (fieldTexts fields)

def itemTexts : List Toml → List (List Char)
  | [] => []
  | item :: rest => valueText item :: itemTexts rest

def fieldTexts : List (String × Toml) → List (List Char)
  | [] => []
  | (name, value) :: rest => assignment name (valueText value) :: fieldTexts rest

end

/-! ## Sections -/

/-- A header with the lines under it. -/
structure PrintedSection where
  header : List Char
  lines : List (List Char)

/-- Whether a value is an array that is written as sections. -/
def isSectionArray : Toml → Bool
  | array items => !items.isEmpty && items.all isTable
  | _ => false

/-- How a field of a table is written: as a line of the table or as sections after it. -/
inductive FieldForm where
  | line (text : List Char)
  | sections (parts : List PrintedSection)

def FieldForm.line? : FieldForm → Option (List Char)
  | line text => some text
  | sections _ => none

def FieldForm.subsections : FieldForm → List PrintedSection
  | line _ => []
  | sections parts => parts

/-- The sections of a table. Its own is left out if it would be empty but for its sub-tables,
unless it is an element of an array. -/
def tableSections (isElement : Bool) (path : List String) (forms : List FieldForm) :
    List PrintedSection :=
  let lines := forms.filterMap FieldForm.line?
  let brackets := if isElement then 2 else 1
  let header := List.replicate brackets '[' ++ pathText path ++ List.replicate brackets ']'
  let own := if isElement || !lines.isEmpty || forms.isEmpty then [⟨header, lines⟩] else []
  own ++ forms.flatMap FieldForm.subsections

mutual

/-- The sections of a table or of an array of tables. -/
def sections (path : List String) (isElement : Bool) : Toml → List PrintedSection
  | table fields => tableSections isElement path (fieldForms path fields)
  | array items => elementSections path items
  | _ => []

def elementSections (path : List String) : List Toml → List PrintedSection
  | [] => []
  | item :: rest => sections path true item ++ elementSections path rest

def fieldForms (path : List String) : List (String × Toml) → List FieldForm
  | [] => []
  | (name, value) :: rest =>
    let form : FieldForm :=
      if value.isTable || isSectionArray value then
        .sections (sections (path ++ [name]) false value)
      else .line (assignment name (valueText value))
    form :: fieldForms path rest

end

def sectionText (part : PrintedSection) : List Char :=
  part.header ++ ['\n'] ++ part.lines.flatMap (· ++ ['\n'])

/-- Sections with a blank line between them. -/
def sectionsText (parts : List PrintedSection) : List Char :=
  ['\n'].intercalate (parts.map sectionText)

end Templating.Toml
