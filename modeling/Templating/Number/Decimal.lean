import Templating.Number.Binary

/-!
# Decimal numbers and their text

* `Decimal` is `digits * 10 ^ exponent`; `Decimal.nearest` rounds it to a binary format.
* `Decimal.shortest` is the decimal with the fewest digits that reads back as a given word.
* `Literal.read?` is the grammar of a number's text: an optional sign, then `inf`, `infinity` or
  `nan` in any case, or digits with an optional point and exponent.
-/

namespace Templating.Number

/-- The number `digits * 10 ^ exponent`. -/
structure Decimal where
  digits : Nat
  exponent : Int
  deriving DecidableEq, Repr

namespace Decimal

/-- No finite positive magnitude of `Format.double` or `Format.single` lies outside
`10 ^ (-reach)` to `10 ^ reach`. -/
def reach : Int := 400

/-- The word nearest to a decimal. Exponents far outside the format are settled without computing
the power of ten. -/
def nearest (f : Format) (d : Decimal) : Nat :=
  if d.digits = 0 then 0
  else if reach < d.exponent then f.infinity
  else if d.exponent + d.digits.log2 + 1 < -reach then 0
  else f.nearest (d.digits * Nat.pow 10 d.exponent.toNat) (Nat.pow 10 (-d.exponent).toNat)

/-- The decimal equal to `m * 2 ^ q`. -/
def ofScaled (m : Nat) : Int → Decimal
  | .ofNat k => ⟨m * Nat.pow 2 k, 0⟩
  | .negSucc k => ⟨m * Nat.pow 5 (k + 1), -(k + 1 : Nat)⟩

/-- The number of digits of a natural number. -/
def digitCount (n : Nat) : Nat := (Nat.toDigits 10 n).length

/-- Where a number lies exactly between two candidates: the one further from zero or the one with
an even last digit. -/
inductive Tie where
  | away
  | even
  deriving DecidableEq, Repr

/-- The two neighbours of `d` on the grid with `drop` digits less, the nearer one first. -/
def neighbours (tie : Tie) (d : Decimal) (drop : Nat) : Decimal × Decimal :=
  let unit := Nat.pow 10 drop
  let lower := d.digits / unit
  let below : Decimal := ⟨lower, d.exponent + drop⟩
  let above : Decimal := ⟨lower + 1, d.exponent + drop⟩
  let twice := 2 * (d.digits % unit)
  let isUp :=
    if twice = unit then
      match tie with
      | .away => true
      | .even => lower % 2 = 1
    else decide (unit < twice)
  if isUp then (above, below) else (below, above)

/-- The first decimal that passes `accept` among the neighbours of `d` on coarser grids, from the
coarsest with `drop` digits less. `d` itself is the last resort. -/
def search (accept : Decimal → Bool) (tie : Tie) (d : Decimal) : Nat → Decimal
  | 0 => d
  | drop + 1 =>
    let (near, far) := neighbours tie d (drop + 1)
    if accept near then near
    else if accept far then far
    else search accept tie d drop

/-- Moves up to `fuel` trailing zeros into the exponent. -/
def dropZeros : Nat → Decimal → Decimal
  | 0, d => d
  | fuel + 1, d =>
    if d.digits % 10 = 0 then dropZeros fuel ⟨d.digits / 10, d.exponent + 1⟩ else d

/-- The same number without trailing zeros. -/
def trim (d : Decimal) : Decimal :=
  if d.digits = 0 then ⟨0, 0⟩ else dropZeros (digitCount d.digits) d

/-- The decimal with the fewest digits that reads back as the given word, and of several the
nearest one. -/
def shortest (f : Format) (tie : Tie) (word : Nat) : Decimal :=
  let (m, q) := f.parts word
  let exact := ofScaled m q
  trim (search (fun d => d.nearest f == word) tie exact (digitCount exact.digits - 1))

end Decimal

/-- A number as its text gives it. -/
inductive Literal where
  | nan
  | infinite (negative : Bool)
  | decimal (negative : Bool) (value : Decimal)
  deriving DecidableEq, Repr

namespace Literal

/-- The value of a run of decimal digits, continuing from `start`. -/
def digitsValue (start : Nat) (cs : List Char) : Nat :=
  cs.foldl (fun n c => 10 * n + (c.toNat - '0'.toNat)) start

/-- The value of a hexadecimal digit. -/
def hexValue? (c : Char) : Option Nat :=
  if '0' ≤ c ∧ c ≤ '9' then some (c.toNat - '0'.toNat)
  else if 'a' ≤ c ∧ c ≤ 'f' then some (c.toNat - 'a'.toNat + 10)
  else if 'A' ≤ c ∧ c ≤ 'F' then some (c.toNat - 'A'.toNat + 10)
  else none

/-- Splits off the leading decimal digits. -/
def spanDigits (cs : List Char) : List Char × List Char :=
  (cs.takeWhile Char.isDigit, cs.dropWhile Char.isDigit)

/-- Splits off a sign; `true` stands for minus. -/
def spanSign : List Char → Bool × List Char
  | '-' :: rest => (true, rest)
  | '+' :: rest => (false, rest)
  | cs => (false, cs)

/-- The exponent that ends a number's text. No text is exponent zero. -/
def readExponent? : List Char → Option Int
  | [] => some 0
  | c :: rest =>
    if c = 'e' ∨ c = 'E' then
      let (negative, cs) := spanSign rest
      match spanDigits cs with
      | ([], _) => none
      | (ds, []) =>
        let n : Int := digitsValue 0 ds
        some (if negative then -n else n)
      | _ => none
    else none

/-- Digits with an optional point, of which at least one is needed, and an optional exponent. -/
def readDecimal? (cs : List Char) : Option Decimal :=
  let (whole, rest) := spanDigits cs
  let (fraction, rest) :=
    match rest with
    | '.' :: r => spanDigits r
    | r => ([], r)
  if whole = [] ∧ fraction = [] then none
  else
    (readExponent? rest).map fun e =>
      ⟨digitsValue (digitsValue 0 whole) fraction, e - fraction.length⟩

def read? (cs : List Char) : Option Literal :=
  let (negative, body) := spanSign cs
  let word := String.ofList (body.map Char.toLower)
  if word = "nan" then some .nan
  else if word = "inf" ∨ word = "infinity" then some (.infinite negative)
  else (readDecimal? body).map (.decimal negative)

/-- The double nearest to a literal. -/
def toFloat : Literal → Float
  | .nan => Number.nan
  | .infinite negative => Number.infinity negative
  | .decimal negative d => ofWord negative (d.nearest Format.double)

/-- The double equal to the single nearest to a literal. -/
def toSingle : Literal → Float
  | .nan => Number.nan
  | .infinite negative => Number.infinity negative
  | .decimal negative d =>
    let word := d.nearest Format.single
    if word = Format.single.infinity then Number.infinity negative
    else
      let (m, q) := Format.single.parts word
      ofScaled negative m q

end Literal

/-- Reads the text of a number. -/
def parse? (text : String) : Option Float :=
  (Literal.read? text.toList).map Literal.toFloat

end Templating.Number
