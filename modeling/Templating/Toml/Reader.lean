import Templating.Toml.Document

/-!
# Reading TOML

Every reader takes the characters that are left and gives what it read with the characters after
it, or nothing where the grammar does not fit. `value n` may open `n` arrays and inline tables
within each other.
-/

namespace Templating.Toml.Reader

/-- What was read and the characters after it. -/
abbrev Read (α : Type) := α × List Char

/-! ## Blanks, line ends and comments -/

def isBlank (c : Char) : Bool := c == ' ' || c == '\t'

def skipBlank (cs : List Char) : List Char := cs.dropWhile isBlank

/-- The characters that need no escape where a line may not end: tabs and everything that is not a
control character. -/
def isPlain (c : Char) : Bool := c == '\t' || (0x20 ≤ c.toNat && c.toNat != 0x7F)

/-- A line end. -/
def newline? : List Char → Option (List Char)
  | '\n' :: rest => some rest
  | '\r' :: '\n' :: rest => some rest
  | _ => none

/-- A line end or the end of the text. -/
def lineEnd? (cs : List Char) : Option (List Char) :=
  match cs with
  | [] => some []
  | cs => newline? cs

/-- Passes over a comment, if there is one. -/
def skipComment : List Char → List Char
  | '#' :: rest => rest.dropWhile isPlain
  | cs => cs

/-- The end of a statement: blanks, a comment and the end of the line. -/
def statementEnd? (cs : List Char) : Option (List Char) := lineEnd? (skipComment (skipBlank cs))

/-- Passes over blanks and line ends. -/
def skipLines : Nat → List Char → List Char
  | 0, cs => cs
  | fuel + 1, cs =>
    match newline? (skipBlank cs) with
    | some rest => skipLines fuel rest
    | none => skipBlank cs

/-- Passes over blanks, line ends and comments between the items of an array. A comment must end
with its line. -/
def skipGap : Nat → List Char → Option (List Char)
  | 0, cs => some cs
  | fuel + 1, cs =>
    match skipBlank cs with
    | '#' :: rest =>
      match newline? (rest.dropWhile isPlain) with
      | some rest => skipGap fuel rest
      | none => none
    | '\n' :: rest => skipGap fuel rest
    | '\r' :: '\n' :: rest => skipGap fuel rest
    | '\r' :: _ => none
    | rest => some rest

/-! ## Strings -/

/-- A number of exactly `width` hexadecimal digits. -/
def hexNumber? : Nat → Nat → List Char → Option Nat
  | 0, n, _ => some n
  | _ + 1, _, [] => none
  | width + 1, n, c :: cs =>
    match Number.Literal.hexValue? c with
    | some d => hexNumber? width (16 * n + d) cs
    | none => none

/-- The character with a given code point, which may not be a surrogate. -/
def charOf? (n : Nat) : Option Char := if n.isValidChar then some (Char.ofNat n) else none

/-- The character of an escape after its backslash, and how many characters the escape takes up
after its letter. -/
def escape? (c : Char) (cs : List Char) : Option (Char × Nat) :=
  if c = 'b' then some ('\x08', 0)
  else if c = 'f' then some ('\x0c', 0)
  else if c = 'n' then some ('\n', 0)
  else if c = 'r' then some ('\r', 0)
  else if c = 't' then some ('\t', 0)
  else if c = '\\' then some ('\\', 0)
  else if c = '"' then some ('"', 0)
  else if c = 'u' then do some (← charOf? (← hexNumber? 4 0 cs), 4)
  else if c = 'U' then do some (← charOf? (← hexNumber? 8 0 cs), 8)
  else none

/-- Puts a character before what was read. -/
def prepend (c : Char) (read : Option (Read (List Char))) : Option (Read (List Char)) :=
  read.map fun (cs, rest) => (c :: cs, rest)

/-- A basic string up to its closing quote. While `skip` is positive, characters are passed over
that an escape has already used. -/
def basicBody (skip : Nat) : List Char → Option (Read (List Char))
  | [] => none
  | c :: cs =>
    match skip with
    | skip + 1 => basicBody skip cs
    | 0 =>
      if c = '"' then some ([], cs)
      else if c = '\\' then
        match cs with
        | [] => none
        | e :: cs =>
          match escape? e cs with
          | some (x, used) => prepend x (basicBody used cs)
          | none => none
      else if isPlain c then prepend c (basicBody 0 cs)
      else none

/-- A literal string up to its closing quote. -/
def literalBody : List Char → Option (Read (List Char))
  | [] => none
  | c :: cs =>
    if c = '\'' then some ([], cs)
    else if isPlain c then prepend c (literalBody cs)
    else none

/-- The number of times a character stands at the beginning. -/
def runLength (c : Char) (cs : List Char) : Nat := (cs.takeWhile (· == c)).length

/-- What a run of quotes means in a string that three quotes close: it is content, or it closes the
string after up to two quotes of content. -/
inductive QuoteRun where
  | content
  | close (content : Nat)

def quoteRun (length : Nat) : QuoteRun :=
  if length < 3 then .content else .close (min 2 (length - 3))

/-- A basic string of several lines up to its closing quotes. A backslash at the end of a line
passes over all blanks and line ends that follow. -/
def longBasicBody : Nat → List Char → Option (Read (List Char))
  | 0, _ => none
  | _ + 1, [] => none
  | fuel + 1, c :: cs =>
    if c = '"' then
      match quoteRun (runLength '"' (c :: cs)) with
      | .content => prepend c (longBasicBody fuel cs)
      | .close content => some (List.replicate content '"', cs.drop (content + 2))
    else if c = '\\' then
      match newline? (skipBlank cs) with
      | some rest => longBasicBody fuel (skipLines rest.length rest)
      | none =>
        match cs with
        | [] => none
        | e :: cs =>
          match escape? e cs with
          | some (x, used) => prepend x (longBasicBody fuel (cs.drop used))
          | none => none
    else if isPlain c then prepend c (longBasicBody fuel cs)
    else
      match newline? (c :: cs) with
      | some rest => prepend '\n' (longBasicBody fuel rest)
      | none => none

/-- A literal string of several lines up to its closing quotes. -/
def longLiteralBody : Nat → List Char → Option (Read (List Char))
  | 0, _ => none
  | _ + 1, [] => none
  | fuel + 1, c :: cs =>
    if c = '\'' then
      match quoteRun (runLength '\'' (c :: cs)) with
      | .content => prepend c (longLiteralBody fuel cs)
      | .close content => some (List.replicate content '\'', cs.drop (content + 2))
    else if isPlain c then prepend c (longLiteralBody fuel cs)
    else
      match newline? (c :: cs) with
      | some rest => prepend '\n' (longLiteralBody fuel rest)
      | none => none

/-- Passes over the line end with which a string of several lines may begin. -/
def dropNewline (cs : List Char) : List Char := (newline? cs).getD cs

/-- A string in any of the four forms. -/
def string? (cs : List Char) : Option (Read String) :=
  let body :=
    match cs with
    | '"' :: '"' :: '"' :: rest => longBasicBody (rest.length + 1) (dropNewline rest)
    | '"' :: rest => basicBody 0 rest
    | '\'' :: '\'' :: '\'' :: rest => longLiteralBody (rest.length + 1) (dropNewline rest)
    | '\'' :: rest => literalBody rest
    | _ => none
  body.map fun (cs, rest) => (String.ofList cs, rest)

/-! ## Numbers -/

/-- Digits between which single underscores may stand. At least one digit comes first. -/
def digits? (isDigit : Char → Bool) : List Char → Option (Read (List Char))
  | [] => none
  | c :: cs => if isDigit c then some (c :: (more cs).1, (more cs).2) else none
where
  /-- The digits after the first one. -/
  more : List Char → Read (List Char)
    | [] => ([], [])
    | c :: cs =>
      if isDigit c then (c :: (more cs).1, (more cs).2)
      else if c = '_' then
        match cs with
        | d :: cs => if isDigit d then (d :: (more cs).1, (more cs).2) else ([], c :: d :: cs)
        | [] => ([], [c])
      else ([], c :: cs)

/-- The digits of a decimal whole number: a zero alone or digits that do not begin with zero. -/
def wholeDigits? (cs : List Char) : Option (Read (List Char)) :=
  match cs with
  | '0' :: rest => some (['0'], rest)
  | cs => digits? Char.isDigit cs

/-- A sign, and whether it is minus. -/
def sign (cs : List Char) : Read Bool := Number.Literal.spanSign cs

/-- An integer that fits 64 bits with a sign. -/
def fitting? (n : Int) : Option Int :=
  if Json.minSigned ≤ n ∧ n < -Json.minSigned then some n else none

/-- The value of digits in a base. -/
def valueOf (base : Nat) (ds : List Char) : Nat :=
  ds.foldl (fun n c => base * n + (Number.Literal.hexValue? c).getD 0) 0

/-- An integer after the mark of its base. -/
def basedInteger? (base : Nat) (cs : List Char) : Option (Read Toml) := do
  let isDigit := fun c => (Number.Literal.hexValue? c).any (· < base)
  let (ds, rest) ← digits? isDigit cs
  some (.integer (← fitting? (valueOf base ds)), rest)

def integer? (cs : List Char) : Option (Read Toml) :=
  match cs with
  | '0' :: 'x' :: rest => basedInteger? 16 rest
  | '0' :: 'o' :: rest => basedInteger? 8 rest
  | '0' :: 'b' :: rest => basedInteger? 2 rest
  | cs => do
    let (negative, cs) := sign cs
    let (ds, rest) ← wholeDigits? cs
    let n : Int := valueOf 10 ds
    some (.integer (← fitting? (if negative then -n else n)), rest)

/-- A fraction after its point. -/
def fraction? : List Char → Option (Read (List Char))
  | '.' :: cs => digits? Char.isDigit cs
  | _ => none

def exponent? : List Char → Option (Read Int)
  | c :: cs =>
    if c = 'e' ∨ c = 'E' then do
      let (negative, cs) := sign cs
      let (ds, rest) ← digits? Char.isDigit cs
      let n : Int := valueOf 10 ds
      some (if negative then -n else n, rest)
    else none
  | [] => none

/-- The double nearest to a decimal. It must not be positive infinity. -/
def finite? (negative : Bool) (d : Number.Decimal) : Option Toml :=
  let word := d.nearest Number.Format.double
  if word = Number.Format.double.infinity ∧ ¬ negative then none
  else some (.float (Number.ofWord negative word))

/-- A number with a fraction or an exponent. -/
def decimalFloat? (cs : List Char) : Option (Read Toml) := do
  let (negative, cs) := sign cs
  let (whole, cs) ← wholeDigits? cs
  match fraction? cs with
  | some (places, cs) =>
    let (e, cs) := (exponent? cs).getD (0, cs)
    some (← finite? negative ⟨valueOf 10 (whole ++ places), e - places.length⟩, cs)
  | none => do
    let (e, cs) ← exponent? cs
    some (← finite? negative ⟨valueOf 10 whole, e⟩, cs)

/-- Infinity or not-a-number. -/
def specialFloat? (cs : List Char) : Option (Read Toml) :=
  match sign cs with
  | (negative, 'i' :: 'n' :: 'f' :: rest) => some (.float (Number.infinity negative), rest)
  | (_, 'n' :: 'a' :: 'n' :: rest) => some (.float Number.nan, rest)
  | _ => none

/-- A date-time or a number: the first of these forms that fits. -/
def numeric? (cs : List Char) : Option (Read Toml) :=
  match DateTime.read? cs with
  | some (d, rest) => some (.dateTime d, rest)
  | none => ((decimalFloat? cs).or (specialFloat? cs)).or (integer? cs)

def boolean? : List Char → Option (Read Toml)
  | 't' :: 'r' :: 'u' :: 'e' :: rest => some (.boolean true, rest)
  | 'f' :: 'a' :: 'l' :: 's' :: 'e' :: rest => some (.boolean false, rest)
  | _ => none

/-! ## Keys -/

def isBareKeyChar (c : Char) : Bool :=
  ('a' ≤ c && c ≤ 'z') || ('A' ≤ c && c ≤ 'Z') || c.isDigit || c == '-' || c == '_'

/-- One part of a key: bare, or a string on one line. -/
def simpleKey? : List Char → Option (Read String)
  | [] => none
  | c :: cs =>
    if c = '"' then (basicBody 0 cs).map fun (s, rest) => (String.ofList s, rest)
    else if c = '\'' then (literalBody cs).map fun (s, rest) => (String.ofList s, rest)
    else
      match (c :: cs).takeWhile isBareKeyChar with
      | [] => none
      | name => some (String.ofList name, (c :: cs).dropWhile isBareKeyChar)

/-- The parts of a dotted key after a first one, with blanks around them. -/
def keyParts? : Nat → List Char → Option (Read (List String))
  | 0, _ => none
  | fuel + 1, cs => do
    let (part, cs) ← simpleKey? (skipBlank cs)
    match skipBlank cs with
    | '.' :: cs => do
      let (parts, cs) ← keyParts? fuel cs
      some (part :: parts, cs)
    | cs => some ([part], cs)

/-- One more than the depth to which arrays and inline tables may be nested, and than the number of
parts of a key. -/
def limit : Nat := 80

/-- A dotted key, split into the path to its table and its last part. -/
def key? (cs : List Char) : Option (Read (List String × String)) := do
  let (parts, rest) ← keyParts? (cs.length + 1) cs
  if limit ≤ parts.length then none
  else
    match parts.getLast? with
    | some name => some ((parts.dropLast, name), rest)
    | none => none

/-! ## Values -/

/-- The items of an array up to its closing bracket. -/
def arrayItems? (item : List Char → Option (Read Item)) :
    Nat → List Char → Option (Read (List Item))
  | 0, _ => none
  | fuel + 1, cs => do
    let cs ← skipGap cs.length cs
    match cs with
    | ']' :: rest => some ([], rest)
    | cs => do
      let (first, cs) ← item cs
      match ← skipGap cs.length cs with
      | ']' :: rest => some ([first], rest)
      | ',' :: cs => do
        let (items, rest) ← arrayItems? item fuel cs
        some (first :: items, rest)
      | _ => none

/-- A key, an equals sign and a value, with blanks around each. -/
def keyValue? (item : List Char → Option (Read Item)) (cs : List Char) :
    Option (Read ((List String × String) × Item)) := do
  let (key, cs) ← key? cs
  match cs with
  | '=' :: cs => do
    let (value, rest) ← item (skipBlank cs)
    some ((key, value), rest)
  | _ => none

/-- The entries of an inline table from its first key to its closing brace. -/
def inlineEntries? (item : List Char → Option (Read Item)) :
    Nat → Entries → List Char → Option (Read Entries)
  | 0, _, _ => none
  | fuel + 1, entries, cs => do
    let (((path, name), value), cs) ← keyValue? item cs
    let entries ← (insertKey .keyPathInBraces name value path none entries).toOption
    match skipBlank cs with
    | '\x7d' :: rest => some (entries, rest)
    | ',' :: cs => inlineEntries? item fuel entries cs
    | _ => none

def inlineTable? (item : List Char → Option (Read Item)) (cs : List Char) :
    Option (Read Entries) :=
  match skipBlank cs with
  | '\x7d' :: rest => some ([], rest)
  | cs => inlineEntries? item (cs.length + 1) [] cs

/-- A value that begins with the first character given. Arrays and inline tables are read with
`nested`, which is missing where they would be nested too deeply. -/
def valueFrom? (nested : Option (List Char → Option (Read Item))) (cs : List Char) :
    Option (Read Item) :=
  match cs with
  | [] => none
  | c :: rest =>
    if c = '"' ∨ c = '\'' then (string? cs).map fun (s, rest) => (.scalar (.string s), rest)
    else if c = '[' then do
      let (items, rest) ← arrayItems? (← nested) (rest.length + 1) rest
      some (.array items, rest)
    else if c = '\x7b' then do
      let (entries, rest) ← inlineTable? (← nested) rest
      some (.table .braces entries, rest)
    else ((boolean? cs).or (numeric? cs)).map fun (value, rest) => (.scalar value, rest)

/-- A value with at most the given nesting. -/
def value? : Nat → List Char → Option (Read Item)
  | 0, cs => valueFrom? none cs
  | depth + 1, cs => valueFrom? (some (value? depth)) cs

/-! ## Documents -/

/-- The rest of a header after its opening brackets. -/
def header? (closing : List Char) (cs : List Char) : Option (Read (List String × String)) := do
  let (key, cs) ← key? cs
  let rest ← close closing cs
  some (key, ← statementEnd? rest)
where
  /-- The closing brackets. -/
  close : List Char → List Char → Option (List Char)
    | [], cs => some cs
    | _ :: _, [] => none
    | expected :: more, c :: cs => if c = expected then close more cs else none

/-- Turns what does not fit the grammar into an error. -/
def orMalformed {α : Type} : Option α → Except Error α
  | some x => .ok x
  | none => .error .malformed

/-- The statements of a document, one for each line that is not blank. -/
def statements : Nat → Draft → List Char → Except Error Draft
  | 0, _, _ => .error .malformed
  | fuel + 1, draft, cs =>
    match skipBlank cs with
    | [] => .ok draft
    | '[' :: '[' :: cs => do
      let ((path, name), rest) ← orMalformed (header? [']', ']'] cs)
      statements fuel (← draft.openElement path name) rest
    | '[' :: cs => do
      let ((path, name), rest) ← orMalformed (header? [']'] cs)
      statements fuel (← draft.openTable path name) rest
    | c :: cs =>
      if c = '#' ∨ c = '\n' ∨ c = '\r' then do
        statements fuel draft (← orMalformed (statementEnd? (c :: cs)))
      else do
        let (((path, name), value), rest) ← orMalformed (keyValue? (value? (limit - 1)) (c :: cs))
        let rest ← orMalformed (statementEnd? rest)
        statements fuel (← draft.addValue path name value) rest

/-- The root table of a document, which a byte order mark may precede. -/
def document (cs : List Char) : Except Error Entries := do
  let cs := match cs with
    | '\uFEFF' :: rest => rest
    | cs => cs
  (← statements (cs.length + 1) Draft.empty cs).close

end Reader

/-- Reads a document. Its root is always a table. -/
def parse (text : String) : Except Error (List (String × Toml)) := do
  let entries ← Item.entryValues (← Reader.document text.toList)
  .ok (Fields.ofList entries)

end Templating.Toml
