import Templating.Json.Reader

/-!
# Passing over JSON

`skipValue` finds the end of a value that nobody wants to know. It keeps a list of the lists and
objects that are still open, so any nesting is accepted, and it is satisfied with less than a full
reader: numbers may be too large and escapes may stand for lone surrogates.
-/

namespace Templating.Json.Reader

/-- What encloses a value. -/
inductive Frame where
  | list
  | object
  deriving DecidableEq, Repr

def Frame.close : Frame → Char
  | .list => ']'
  | .object => '\x7d'

/-- The error for a text that ends between the parts of a frame. -/
def Frame.endError : Frame → SyntaxError
  | .list => .endInList
  | .object => .endInObject

def Frame.expectedEnd : Frame → SyntaxError
  | .list => .expectedListEnd
  | .object => .expectedObjectEnd

/-- Passes over a string after its opening quote. While `skip` is positive, characters are passed
over that an escape has already used. -/
def skipString (skip : Nat) : List Char → Except Error (List Char)
  | [] => fail .endInString
  | c :: cs =>
    match skip with
    | skip + 1 => skipString skip cs
    | 0 =>
      if c = '"' then .ok cs
      else if c = '\\' then
        match cs with
        | [] => fail .endInString
        | e :: cs =>
          if (escape? e).isSome then skipString 0 cs
          else if e = 'u' then
            match hexUnit cs with
            | .ok _ => skipString 4 cs
            | .error error => .error error
          else fail .invalidEscape
      else if c.toNat < 0x20 then fail .controlCharacter
      else skipString 0 cs

/-- Passes over one or more digits. -/
def skipDigits (cs : List Char) : Except Error (List Char) :=
  match Number.Literal.spanDigits cs with
  | ([], _) => fail .invalidNumber
  | (_, rest) => .ok rest

def skipExponent : List Char → Except Error (List Char)
  | [] => .ok []
  | c :: cs =>
    if c = 'e' ∨ c = 'E' then skipDigits (Number.Literal.spanSign cs).2 else .ok (c :: cs)

def skipFraction : List Char → Except Error (List Char)
  | [] => .ok []
  | c :: cs => if c = '.' then skipDigits cs else .ok (c :: cs)

/-- Passes over a number after its sign. -/
def skipNumber (cs : List Char) : Except Error (List Char) := do
  let rest ← skipDigits cs
  if cs.head? = some '0' ∧ 1 < cs.length - rest.length then fail .invalidNumber
  else skipExponent (← skipFraction rest)

/-- Passes over a value that is neither a list nor an object and begins with the given
character. -/
def skipScalar (c : Char) (cs : List Char) : Except Error (List Char) :=
  if c = 'n' then word ['u', 'l', 'l'] cs
  else if c = 't' then word ['r', 'u', 'e'] cs
  else if c = 'f' then word ['a', 'l', 's', 'e'] cs
  else if c = '"' then skipString 0 cs
  else if c = '-' then skipNumber cs
  else if c.isDigit then skipNumber (c :: cs)
  else fail .expectedValue

/-- Passes over what comes before the next value in a frame: nothing in a list, a name and a colon
in an object. -/
def skipName (frame : Frame) (cs : List Char) : Except Error (List Char) :=
  match frame with
  | .list => .ok cs
  | .object =>
    match skipBlank cs with
    | [] => fail .endInObject
    | c :: cs =>
      if c = '"' then do colon (← skipString 0 cs) else fail .keyNotString

/-- Goes on to the next value in the innermost frame, closing those that end. A comma may come
first if a value has gone before. No frame is left at the end of the value that opened them. -/
def skipToNext (afterValue : Bool) : List Frame → List Char → Except Error (List Frame × List Char)
  | [], cs => .ok ([], cs)
  | frame :: outer, cs =>
    match skipBlank cs with
    | [] => fail frame.endError
    | c :: rest =>
      if afterValue && c == ',' then do .ok (frame :: outer, ← skipName frame rest)
      else if c = frame.close then skipToNext true outer rest
      else if afterValue then fail frame.expectedEnd
      else do .ok (frame :: outer, ← skipName frame (c :: rest))

/-- Passes over values until the given frames are closed. Every step uses up a character, so
`fuel` need not exceed their number. -/
def skipFrames : Nat → List Frame → List Char → Except Error (List Char)
  | 0, _, _ => fail .endInValue
  | fuel + 1, frames, cs =>
    match skipBlank cs with
    | [] => fail .endInValue
    | c :: cs => do
      let (frames, rest) ←
        if c = '[' then skipToNext false (.list :: frames) cs
        else if c = '\x7b' then skipToNext false (.object :: frames) cs
        else do skipToNext true frames (← skipScalar c cs)
      if frames = [] then .ok rest else skipFrames fuel frames rest

def skipValue (cs : List Char) : Except Error (List Char) := skipFrames (cs.length + 1) [] cs

end Templating.Json.Reader
