import Templating.Json.Basic
import Templating.Json.Error
import Templating.Number.Scaling

/-!
# Reading JSON

Every reader takes the characters that are left and gives back what it read with the characters
after it. `nextItem`, `nextMember` and `colon` read what stands between the parts of a list or an
object; readers of lists, objects and records are built from them, and `value` from those. `value n`
may open `n` lists and objects within each other.
-/

namespace Templating.Json.Reader

/-- What was read and the characters after it. -/
abbrev Read (α : Type) := α × List Char

def fail {α : Type} (error : SyntaxError) : Except Error α := .error (.syntactic error)

def isBlank (c : Char) : Bool := c == ' ' || c == '\t' || c == '\n' || c == '\r'

def skipBlank (cs : List Char) : List Char := cs.dropWhile isBlank

/-- The rest of a word whose first character has been recognised. -/
def word : List Char → List Char → Except Error (List Char)
  | [], cs => .ok cs
  | _ :: _, [] => fail .endInValue
  | expected :: more, c :: cs => if c = expected then word more cs else fail .brokenWord

/-- The value of four hexadecimal digits. -/
def hexQuad? (a b c d : Char) : Option Nat := do
  let a ← Number.Literal.hexValue? a
  let b ← Number.Literal.hexValue? b
  let c ← Number.Literal.hexValue? c
  let d ← Number.Literal.hexValue? d
  pure (((a * 16 + b) * 16 + c) * 16 + d)

/-- Four hexadecimal digits. Where four bytes are left but not four digits, an escape is wrong;
where fewer are left, the text ends too early. -/
def hexUnit : List Char → Except Error Nat
  | a :: b :: c :: d :: _ =>
    match hexQuad? a b c d with
    | some n => .ok n
    | none => fail .invalidEscape
  | cs => if 4 ≤ (String.ofList cs).utf8ByteSize then fail .invalidEscape else fail .endInString

/-- The character that a one-letter escape stands for. -/
def escape? (c : Char) : Option Char :=
  if c = '"' then some '"'
  else if c = '\\' then some '\\'
  else if c = '/' then some '/'
  else if c = 'b' then some '\x08'
  else if c = 'f' then some '\x0c'
  else if c = 'n' then some '\n'
  else if c = 'r' then some '\r'
  else if c = 't' then some '\t'
  else none

def isLeading (unit : Nat) : Bool := decide (0xD800 ≤ unit) && decide (unit ≤ 0xDBFF)

def isTrailing (unit : Nat) : Bool := decide (0xDC00 ≤ unit) && decide (unit ≤ 0xDFFF)

/-- The character that two surrogates stand for. -/
def pairChar (leading trailing : Nat) : Char :=
  Char.ofNat ((leading - 0xD800) * 0x400 + (trailing - 0xDC00) + 0x10000)

/-- The second half of a surrogate pair: a backslash, `u` and four digits. -/
def trailingUnit : List Char → Except Error Nat
  | [] => fail .endInString
  | b :: cs =>
    if b = '\\' then
      match cs with
      | [] => fail .endInString
      | u :: cs =>
        if u = 'u' then do
          let unit ← hexUnit cs
          if isTrailing unit then .ok unit else fail .loneSurrogate
        else fail .unpairedSurrogate
    else fail .unpairedSurrogate

/-- The character of an escape with four digits, and how many characters it takes up after its
`u`. -/
def unicodeEscape (cs : List Char) : Except Error (Char × Nat) := do
  let unit ← hexUnit cs
  if isTrailing unit then fail .loneSurrogate
  else if isLeading unit then do
    let second ← trailingUnit (cs.drop 4)
    .ok (pairChar unit second, 10)
  else .ok (Char.ofNat unit, 4)

/-- Puts a character before what was read. -/
def prepend (c : Char) : Except Error (Read (List Char)) → Except Error (Read (List Char))
  | .ok (cs, rest) => .ok (c :: cs, rest)
  | .error e => .error e

/-- The characters of a string up to its closing quote. While `skip` is positive, characters are
passed over that an escape has already used. -/
def stringBody (skip : Nat) : List Char → Except Error (Read (List Char))
  | [] => fail .endInString
  | c :: cs =>
    match skip with
    | skip + 1 => stringBody skip cs
    | 0 =>
      if c = '"' then .ok ([], cs)
      else if c = '\\' then
        match cs with
        | [] => fail .endInString
        | e :: cs =>
          match escape? e with
          | some x => prepend x (stringBody 0 cs)
          | none =>
            if e = 'u' then
              match unicodeEscape cs with
              | .ok (x, used) => prepend x (stringBody used cs)
              | .error error => .error error
            else fail .invalidEscape
      else if c.toNat < 0x20 then fail .controlCharacter
      else prepend c (stringBody 0 cs)

/-- A string after its opening quote. -/
def string (cs : List Char) : Except Error (Read String) := do
  let (body, rest) ← stringBody 0 cs
  .ok (String.ofList body, rest)

/-- One or more digits. -/
def digits (cs : List Char) : Except Error (Read (List Char)) :=
  match Number.Literal.spanDigits cs with
  | ([], []) => fail .endInValue
  | ([], _ :: _) => fail .invalidNumber
  | (ds, rest) => .ok (ds, rest)

/-- The digits of a whole part: a zero alone or digits that do not begin with zero. -/
def wholePart (cs : List Char) : Except Error (Read (List Char)) := do
  let (ds, rest) ← digits cs
  if ds.head? = some '0' ∧ 1 < ds.length then fail .invalidNumber else .ok (ds, rest)

/-- The digits after a point, if there is one. -/
def fractionPart : List Char → Except Error (Read (Option (List Char)))
  | [] => .ok (none, [])
  | c :: cs =>
    if c = '.' then do
      let (ds, rest) ← digits cs
      .ok (some ds, rest)
    else .ok (none, c :: cs)

/-- The exponent after `e`, if there is one. -/
def exponentPart : List Char → Except Error (Read (Option Int))
  | [] => .ok (none, [])
  | c :: cs =>
    if c = 'e' ∨ c = 'E' then do
      let (negative, cs) := Number.Literal.spanSign cs
      let (ds, rest) ← digits cs
      let n : Int := Number.Literal.digitsValue 0 ds
      .ok (some (if negative then -n else n), rest)
    else .ok (none, c :: cs)

/-- The double that a significand with an exponent of ten comes to, which must be finite. -/
def double (negative : Bool) (significand : Nat) (exponent : Int) : Except Error Json :=
  let word := Number.scale significand exponent
  if word = Number.Format.double.infinity then fail .numberTooLarge
  else .ok (.float (Number.ofWord negative word))

/-- A whole number by its first digits and the number of those that are left: an integer where it
fits 64 bits, else a double. Minus zero is a double. -/
def wholeNumber (negative : Bool) (significand left : Nat) : Except Error Json :=
  if left = 0 ∧ negative = false then .ok (.integer significand)
  else if left = 0 ∧ 0 < significand ∧ minSigned ≤ -significand then .ok (.integer (-significand))
  else double negative significand left

def number (cs : List Char) : Except Error (Read Json) := do
  let (negative, cs) :=
    match cs with
    | '-' :: rest => (true, rest)
    | rest => (false, rest)
  let (whole, cs) ← wholePart cs
  let (fraction, cs) ← fractionPart cs
  let (exponent, cs) ← exponentPart cs
  let (significand, left) := Number.takeDigits 0 whole
  match fraction, exponent with
  | none, none => do
    let json ← wholeNumber negative significand left.length
    .ok (json, cs)
  | _, _ => do
    let places := fraction.getD []
    let (significand, dropped) := Number.takeDigits significand places
    let json ← double negative significand
      (exponent.getD 0 + left.length - (places.length - dropped.length : Nat))
    .ok (json, cs)

/-- What follows in a list: its end, or an item. -/
inductive NextItem where
  | close (rest : List Char)
  | item (rest : List Char)

def nextItem (first : Bool) (cs : List Char) : Except Error NextItem :=
  match skipBlank cs with
  | [] => fail .endInList
  | c :: cs =>
    if c = ']' then .ok (.close cs)
    else if first then .ok (.item (c :: cs))
    else if c = ',' then
      match skipBlank cs with
      | [] => fail .endInValue
      | d :: cs => if d = ']' then fail .trailingComma else .ok (.item (d :: cs))
    else fail .expectedListEnd

/-- What follows in an object: its end, or a member's name. -/
inductive NextMember where
  | close (rest : List Char)
  | member (name : String) (rest : List Char)

/-- A member's name, from its opening quote. -/
def memberName : List Char → Except Error NextMember
  | [] => fail .endInValue
  | c :: cs =>
    if c = '"' then do
      let (name, rest) ← string cs
      .ok (.member name rest)
    else fail .keyNotString

def nextMember (first : Bool) (cs : List Char) : Except Error NextMember :=
  match skipBlank cs with
  | [] => fail .endInObject
  | c :: cs =>
    if c = '\x7d' then .ok (.close cs)
    else if first then memberName (c :: cs)
    else if c = ',' then
      match skipBlank cs with
      | [] => fail .endInValue
      | d :: cs => if d = '\x7d' then fail .trailingComma else memberName (d :: cs)
    else fail .expectedObjectEnd

/-- The colon between a member's name and its value. -/
def colon (cs : List Char) : Except Error (List Char) :=
  match skipBlank cs with
  | [] => fail .endInObject
  | c :: cs => if c = ':' then .ok cs else fail .expectedColon

/-- The end of a list from which no further item is wanted. -/
def closeList (cs : List Char) : Except Error (List Char) :=
  match skipBlank cs with
  | [] => fail .endInList
  | c :: cs =>
    if c = ']' then .ok cs
    else if c = ',' then
      match skipBlank cs with
      | d :: _ => if d = ']' then fail .trailingComma else fail .trailingText
      | [] => fail .trailingText
    else fail .trailingText

/-- The items of a list up to its end. There are fewer than `fuel` of them when `fuel` exceeds the
number of characters. -/
def listItems {α : Type} (item : List Char → Except Error (Read α)) :
    Nat → Bool → List Char → Except Error (Read (List α))
  | 0, _, _ => fail .endInList
  | fuel + 1, first, cs => do
    match ← nextItem first cs with
    | .close rest => .ok ([], rest)
    | .item rest =>
      let (x, rest) ← item rest
      let (xs, rest) ← listItems item fuel false rest
      .ok (x :: xs, rest)

/-- The members of an object up to its end. -/
def objectMembers {α : Type} (value : List Char → Except Error (Read α)) :
    Nat → Bool → List Char → Except Error (Read (List (String × α)))
  | 0, _, _ => fail .endInObject
  | fuel + 1, first, cs => do
    match ← nextMember first cs with
    | .close rest => .ok ([], rest)
    | .member name rest =>
      let rest ← colon rest
      let (x, rest) ← value rest
      let (xs, rest) ← objectMembers value fuel false rest
      .ok ((name, x) :: xs, rest)

/-- A value whose first character is given. Lists and objects are read with `nested`, which is
missing where they would be nested too deeply. -/
def valueFrom (nested : Option (List Char → Except Error (Read Json))) (c : Char) (cs : List Char) :
    Except Error (Read Json) :=
  if c = 'n' then do .ok (.null, ← word ['u', 'l', 'l'] cs)
  else if c = 't' then do .ok (.boolean true, ← word ['r', 'u', 'e'] cs)
  else if c = 'f' then do .ok (.boolean false, ← word ['a', 'l', 's', 'e'] cs)
  else if c = '"' then do
    let (s, rest) ← string cs
    .ok (.string s, rest)
  else if c = '-' ∨ c.isDigit then number (c :: cs)
  else if c = '[' then
    match nested with
    | none => fail .tooDeep
    | some item => do
      let (items, rest) ← listItems item (cs.length + 1) true cs
      .ok (.array items, rest)
  else if c = '\x7b' then
    match nested with
    | none => fail .tooDeep
    | some item => do
      let (members, rest) ← objectMembers item (cs.length + 1) true cs
      .ok (.object members, rest)
  else fail .expectedValue

/-- The error for a value where something else is expected. A list or an object is not read any
further, everything else must be well formed to be named. -/
def unexpected (expected : String) (c : Char) (cs : List Char) : Error :=
  if c = '[' then .shape (.wrongType "sequence" expected)
  else if c = '\x7b' then .shape (.wrongType "map" expected)
  else
    match valueFrom none c cs with
    | .ok (json, _) => .shape (.wrongType json.describe expected)
    | .error error => error

/-- A value with at most the given nesting. -/
def value : Nat → List Char → Except Error (Read Json)
  | 0, cs =>
    match skipBlank cs with
    | [] => fail .endInValue
    | c :: rest => valueFrom none c rest
  | depth + 1, cs =>
    match skipBlank cs with
    | [] => fail .endInValue
    | c :: rest => valueFrom (some (value depth)) c rest

/-- How deeply lists and objects may be nested. -/
def maxNesting : Nat := 127

/-- Succeeds where only blanks are left. -/
def finish (cs : List Char) : Except Error Unit :=
  match skipBlank cs with
  | [] => .ok ()
  | _ :: _ => fail .trailingText

end Reader

/-- Reads a text that holds one JSON value. -/
def parse (text : String) : Except Error Json := do
  let (json, rest) ← Reader.value Reader.maxNesting text.toList
  Reader.finish rest
  .ok json

end Templating.Json
