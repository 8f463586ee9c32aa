import Templating.Number.Decimal

/-!
# Decimals by multiplication

A fast way from a decimal to a double. The digits that fit 64 bits are a natural number, which
becomes the double nearest to it. This is multiplied or divided by a power of ten from a table of
doubles. Each of these steps rounds, so the result need not be the double nearest to the decimal,
and the shortest decimal of a double need not give this double again.

* `takeDigits` takes the digits that fit 64 bits.
* `scale` is the word that a significand with an exponent comes to.
-/

namespace Templating.Number

/-- The largest number of 64 bits. -/
def maxSignificand : Nat := 0xFFFFFFFFFFFFFFFF

/-- The number that goes on with the digits of a text as long as it fits 64 bits, and the digits
from the first one on that does not fit. -/
def takeDigits (significand : Nat) : List Char → Nat × List Char
  | [] => (significand, [])
  | c :: cs =>
    let next := 10 * significand + (c.toNat - '0'.toNat)
    if maxSignificand < next then (significand, c :: cs) else takeDigits next cs

/-- The exponent of the largest power of ten in the table. -/
def maxPower : Nat := 308

/-- The word of a power of ten. -/
def powerOfTen (n : Nat) : Nat := Format.double.nearest (Nat.pow 10 n) 1

/-- The word of a double times `10 ^ n`. What is too large becomes infinity. -/
def raise (word n : Nat) : Nat :=
  if n ≤ maxPower then Format.double.product word (powerOfTen n)
  else if word = 0 then 0
  else Format.double.infinity

/-- The word of a double divided by `10 ^ n`, by the largest power of the table as often as
needed. -/
def lower (word n : Nat) : Nat :=
  if n ≤ maxPower then Format.double.quotient word (powerOfTen n)
  else if word = 0 then 0
  else lower (Format.double.quotient word (powerOfTen maxPower)) (n - maxPower)
termination_by n
decreasing_by
  rw [maxPower] at *
  omega

/-- The word that a significand of 64 bits comes to with an exponent of ten. -/
def scale (significand : Nat) : Int → Nat
  | .ofNat n => raise (Format.double.nearest significand 1) n
  | .negSucc n => lower (Format.double.nearest significand 1) (n + 1)

end Templating.Number
