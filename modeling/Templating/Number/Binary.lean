/-!
# Binary floating-point magnitudes

A magnitude of a binary interchange format is `m * 2 ^ q` for a significand `m` and an exponent `q`.
Its word is the bit pattern without the sign. Because the words of a format are ordered like the
magnitudes, one formula covers subnormal and normal magnitudes alike:
`word = (q - minExponent) * 2 ^ (precision - 1) + m`.

* `Format.parts` splits a word into `m` and `q`.
* `Format.nearest` is the word of a ratio, rounded to nearest with ties to the even significand.
* `Format.product` and `Format.quotient` are the words of products and quotients, rounded likewise.
* `Parts.ofFloat` reads a double, `Parts.toFloat` writes one.
-/

namespace Templating.Number

/-- A binary interchange format. `minExponent` is the exponent of the least subnormal and
`infinity` is the word of positive infinity. -/
structure Format where
  precision : Nat
  minExponent : Int
  infinity : Nat

/-- Doubles: 53 bits of significand. -/
def Format.double : Format := ⟨53, -1074, 0x7FF0000000000000⟩

/-- Singles: 24 bits of significand. -/
def Format.single : Format := ⟨24, -149, 0x7F800000⟩

/-- The number of words that share one exponent. -/
def Format.binade (f : Format) : Nat := Nat.pow 2 (f.precision - 1)

/-- The significand and exponent of a finite word. -/
def Format.parts (f : Format) (word : Nat) : Nat × Int :=
  if word < f.binade then (word, f.minExponent)
  else (f.binade + word % f.binade, f.minExponent + (word / f.binade : Nat) - 1)

/-- The word of the magnitude `m * 2 ^ q`, for `q` at least `minExponent`. -/
def Format.word (f : Format) (m : Nat) (q : Int) : Nat :=
  (q - f.minExponent).toNat * f.binade + m

/-- `num * 2 ^ s / den` as a ratio of naturals. -/
def scaled (num den : Nat) (s : Int) : Nat × Nat :=
  (num * Nat.pow 2 s.toNat, den * Nat.pow 2 (-s).toNat)

/-- The exponent `e` with `2 ^ e ≤ num / den < 2 ^ (e + 1)`, for positive `num` and `den`. -/
def floorLog2 (num den : Nat) : Int :=
  let estimate : Int := (num.log2 : Int) - (den.log2 : Int)
  let (n, d) := scaled num den (-estimate)
  if d ≤ n then estimate else estimate - 1

/-- The natural number nearest to `num / den`. A half goes to the even neighbour. -/
def roundHalfEven (num den : Nat) : Nat :=
  let quotient := num / den
  let twice := 2 * (num % den)
  if twice < den then quotient
  else if den < twice then quotient + 1
  else quotient + quotient % 2

/-- The word of the magnitude nearest to `num / den`. What is too large becomes infinity. A
significand that rounds up to the next power of two carries into the exponent by itself. -/
def Format.nearest (f : Format) (num den : Nat) : Nat :=
  if num = 0 then 0
  else
    let q := max f.minExponent (floorLog2 num den - (f.precision - 1 : Nat))
    let (n, d) := scaled num den (-q)
    min f.infinity (f.word (roundHalfEven n d) q)

/-- The word of the product of two finite magnitudes. -/
def Format.product (f : Format) (a b : Nat) : Nat :=
  let (m, q) := f.parts a
  let (n, r) := f.parts b
  let (num, den) := scaled (m * n) 1 (q + r)
  f.nearest num den

/-- The word of the quotient of two finite magnitudes, of which the second is not zero. -/
def Format.quotient (f : Format) (a b : Nat) : Nat :=
  let (m, q) := f.parts a
  let (n, r) := f.parts b
  let (num, den) := scaled m n (q - r)
  f.nearest num den

/-- What a double stands for. -/
inductive Parts where
  | nan
  | infinite (negative : Bool)
  | finite (negative : Bool) (significand : Nat) (exponent : Int)
  deriving DecidableEq, Repr

/-- The bit that holds the sign of a double. -/
def signBit : Nat := 0x8000000000000000

def Parts.ofFloat (x : Float) : Parts :=
  let bits := x.toBits.toNat
  let negative := decide (signBit ≤ bits)
  let word := bits % signBit
  if word < Format.double.infinity then
    let (m, q) := Format.double.parts word
    .finite negative m q
  else if word = Format.double.infinity then .infinite negative
  else .nan

/-- The double with the given sign and magnitude word. -/
def ofWord (negative : Bool) (word : Nat) : Float :=
  Float.ofBits (UInt64.ofNat (word + if negative then signBit else 0))

/-- The double nearest to `± num / den`. -/
def ofRatio (negative : Bool) (num den : Nat) : Float :=
  ofWord negative (Format.double.nearest num den)

/-- The double nearest to `± m * 2 ^ q`. -/
def ofScaled (negative : Bool) (m : Nat) (q : Int) : Float :=
  let (num, den) := scaled m 1 q
  ofRatio negative num den

def nan : Float := Float.ofBits 0x7FF8000000000000

def infinity (negative : Bool) : Float :=
  ofWord negative Format.double.infinity

def Parts.toFloat : Parts → Float
  | .nan => Number.nan
  | .infinite negative => Number.infinity negative
  | .finite negative m q => ofScaled negative m q

/-- The double nearest to an integer. -/
def ofInt (n : Int) : Float :=
  ofRatio (decide (n < 0)) n.natAbs 1

def ofNat (n : Nat) : Float :=
  ofRatio false n 1

/-- The integer equal to a double, if there is one. Both zeros give zero. -/
def toInt? (x : Float) : Option Int :=
  match Parts.ofFloat x with
  | .finite negative m q =>
    let (num, den) := scaled m 1 q
    if num % den = 0 then
      let n : Int := (num / den : Nat)
      some (if negative then -n else n)
    else none
  | _ => none

/-- The remainder of a division that truncates toward zero. It is exact and takes the sign of the
dividend. -/
def remainder (x y : Float) : Float :=
  match Parts.ofFloat x, Parts.ofFloat y with
  | .finite negative m q, .finite _ n r =>
    if n = 0 then Number.nan
    else
      let least := min q r
      let dividend := m * Nat.pow 2 (q - least).toNat
      let divisor := n * Nat.pow 2 (r - least).toNat
      ofScaled negative (dividend % divisor) least
  | .finite .., .infinite _ => x
  | _, _ => Number.nan

end Templating.Number
