import Templating.Number.Decimal

/-!
# Dates and times of TOML

A date-time is a date, a time of day or both, and may then have an offset from universal time. Its
text is canonical: `T` between date and time, no trailing zeros in fractions of a second, `Z` for
universal time.
-/

namespace Templating.Toml

structure Date where
  year : Nat
  month : Nat
  day : Nat
  deriving DecidableEq, Repr

structure Time where
  hour : Nat
  minute : Nat
  second : Nat
  nanosecond : Nat
  deriving DecidableEq, Repr

inductive Offset where
  | universal
  | minutes (value : Int)
  deriving DecidableEq, Repr

inductive DateTime where
  | date (date : Date)
  | time (time : Time)
  | both (date : Date) (time : Time) (offset : Option Offset)
  deriving DecidableEq, Repr

/-- A number with leading zeros up to a width. -/
def padded (width n : Nat) : String :=
  let ds := (Nat.repr n).toList
  String.ofList (List.replicate (width - ds.length) '0' ++ ds)

def Date.print (date : Date) : String :=
  padded 4 date.year ++ "-" ++ padded 2 date.month ++ "-" ++ padded 2 date.day

/-- The nanoseconds as a decimal fraction without trailing zeros. -/
def fractionText (nanosecond : Nat) : String :=
  if nanosecond = 0 then ""
  else
    let ds := (padded 9 nanosecond).toList
    "." ++ String.ofList (ds.reverse.dropWhile (· == '0')).reverse

def Time.print (time : Time) : String :=
  padded 2 time.hour ++ ":" ++ padded 2 time.minute ++ ":" ++ padded 2 time.second ++
    fractionText time.nanosecond

def Offset.print : Offset → String
  | .universal => "Z"
  | .minutes value =>
    (if value < 0 then "-" else "+") ++ padded 2 (value.natAbs / 60) ++ ":" ++
      padded 2 (value.natAbs % 60)

namespace DateTime

def print : DateTime → String
  | date d => d.print
  | time t => t.print
  | both d t offset => d.print ++ "T" ++ t.print ++ (offset.map Offset.print).getD ""

/-! ## Reading

Every reader gives what it read with the characters after it, or nothing. -/

/-- A number of exactly `width` digits. -/
def readDigits? : Nat → Nat → List Char → Option (Nat × List Char)
  | 0, n, cs => some (n, cs)
  | _ + 1, _, [] => none
  | width + 1, n, c :: cs =>
    if c.isDigit then readDigits? width (10 * n + (c.toNat - '0'.toNat)) cs else none

/-- A number of exactly `width` digits within bounds. -/
def readNumber? (width least greatest : Nat) (cs : List Char) : Option (Nat × List Char) :=
  match readDigits? width 0 cs with
  | some (n, rest) => if least ≤ n ∧ n ≤ greatest then some (n, rest) else none
  | none => none

/-- A certain character. -/
def readChar? (expected : Char) : List Char → Option (List Char)
  | [] => none
  | c :: cs => if c = expected then some cs else none

def isLeapYear (year : Nat) : Bool := year % 4 == 0 && (year % 100 != 0 || year % 400 == 0)

def daysInMonth (year month : Nat) : Nat :=
  if month = 2 then (if isLeapYear year then 29 else 28)
  else if month = 4 ∨ month = 6 ∨ month = 9 ∨ month = 11 then 30
  else 31

def readDate? (cs : List Char) : Option (Date × List Char) := do
  let (year, cs) ← readNumber? 4 0 9999 cs
  let (month, cs) ← readNumber? 2 1 12 (← readChar? '-' cs)
  let (day, cs) ← readNumber? 2 1 (daysInMonth year month) (← readChar? '-' cs)
  some (⟨year, month, day⟩, cs)

/-- The fraction of a second after its point, in nanoseconds. Digits beyond the ninth are cut
off. -/
def nanoseconds (digits : List Char) : Nat :=
  let kept := digits.take 9
  Number.Literal.digitsValue 0 kept * Nat.pow 10 (9 - kept.length)

/-- The fraction of a second, if there is one. -/
def readFraction (cs : List Char) : Nat × List Char :=
  match cs with
  | '.' :: rest =>
    match Number.Literal.spanDigits rest with
    | ([], _) => (0, cs)
    | (ds, rest) => (nanoseconds ds, rest)
  | _ => (0, cs)

/-- A time of day. A minute may have a leap second. -/
def readTime? (cs : List Char) : Option (Time × List Char) := do
  let (hour, cs) ← readNumber? 2 0 23 cs
  let (minute, cs) ← readNumber? 2 0 59 (← readChar? ':' cs)
  let (second, cs) ← readNumber? 2 0 60 (← readChar? ':' cs)
  let (nanosecond, cs) := readFraction cs
  some (⟨hour, minute, second, nanosecond⟩, cs)

def readOffset? : List Char → Option (Offset × List Char)
  | [] => none
  | c :: cs =>
    if c = 'Z' ∨ c = 'z' then some (.universal, cs)
    else if c = '+' ∨ c = '-' then do
      let (hours, cs) ← readNumber? 2 0 23 cs
      let (minutes, cs) ← readNumber? 2 0 59 (← readChar? ':' cs)
      let total : Int := (hours * 60 + minutes : Nat)
      some (.minutes (if c = '-' then -total else total), cs)
    else none

/-- A time of day with an optional offset after the separator of date and time. -/
def readTimeOfDate? : List Char → Option ((Time × Option Offset) × List Char)
  | [] => none
  | c :: cs =>
    if c = 'T' ∨ c = 't' ∨ c = ' ' then do
      let (t, cs) ← readTime? cs
      match readOffset? cs with
      | some (offset, cs) => some ((t, some offset), cs)
      | none => some ((t, none), cs)
    else none

def read? (cs : List Char) : Option (DateTime × List Char) :=
  match readDate? cs with
  | some (d, rest) =>
    match readTimeOfDate? rest with
    | some ((t, offset), rest) => some (both d t offset, rest)
    | none => some (date d, rest)
  | none => (readTime? cs).map fun (t, rest) => (time t, rest)

/-- Reads a text that spells one date-time. -/
def parse? (text : String) : Option DateTime :=
  match read? text.toList with
  | some (dateTime, []) => some dateTime
  | _ => none

end DateTime

end Templating.Toml
