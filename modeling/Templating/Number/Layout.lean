import Templating.Number.Decimal

/-!
# Layouts of printed numbers

A printed number is the shortest decimal that reads back, laid out by a `Layout`: when an exponent
is used, what marks a whole number, how zeros and the values that are not finite are spelled.
-/

namespace Templating.Number

structure Layout where
  /-- Which powers of the leading digit are written without an exponent. -/
  isPositional : Int → Bool
  /-- Written after a whole number that has no exponent. -/
  wholeEnd : String
  zero : String
  negativeZero : String
  nan : String
  infinite : String
  negativeInfinite : String
  tie : Decimal.Tie

namespace Layout

/-- The digits of a decimal without an exponent. -/
def positional (layout : Layout) (d : Decimal) : String :=
  let ds := (Nat.repr d.digits).toList
  if 0 ≤ d.exponent then
    String.ofList (ds ++ List.replicate d.exponent.toNat '0') ++ layout.wholeEnd
  else
    let places := (-d.exponent).toNat
    if places < ds.length then
      String.ofList (ds.take (ds.length - places)) ++ "." ++
        String.ofList (ds.drop (ds.length - places))
    else "0." ++ String.ofList (List.replicate (places - ds.length) '0' ++ ds)

/-- One digit before the point, the power of the leading digit after the mark. -/
def scientific (d : Decimal) (power : Int) : String :=
  let ds := (Nat.repr d.digits).toList
  let fraction := String.ofList (ds.drop 1)
  String.ofList (ds.take 1) ++ (if fraction = "" then "" else "." ++ fraction) ++
    (if power < 0 then "e-" else "e+") ++ Nat.repr power.natAbs

/-- The text of a positive decimal without trailing zeros. -/
def decimal (layout : Layout) (d : Decimal) : String :=
  let power : Int := d.exponent + Decimal.digitCount d.digits - 1
  if layout.isPositional power then layout.positional d else scientific d power

def print (layout : Layout) (x : Float) : String :=
  match Parts.ofFloat x with
  | .nan => layout.nan
  | .infinite negative => if negative then layout.negativeInfinite else layout.infinite
  | .finite negative m q =>
    if m = 0 then (if negative then layout.negativeZero else layout.zero)
    else
      let d := Decimal.shortest Format.double layout.tie (Format.double.word m q)
      (if negative then "-" else "") ++ layout.decimal d

end Layout

/-- All digits are written, both zeros as `0`. -/
def Layout.plain : Layout where
  isPositional _ := true
  wholeEnd := ""
  zero := "0"
  negativeZero := "0"
  nan := "NaN"
  infinite := "Infinity"
  negativeInfinite := "-Infinity"
  tie := .away

/-- All digits are written and the sign of zero is kept. -/
def Layout.signed : Layout :=
  { Layout.plain with negativeZero := "-0", infinite := "inf", negativeInfinite := "-inf" }

/-- All digits are written, whole numbers end in `.0`. -/
def Layout.pointed : Layout where
  isPositional _ := true
  wholeEnd := ".0"
  zero := "0.0"
  negativeZero := "-0.0"
  nan := "nan"
  infinite := "inf"
  negativeInfinite := "-inf"
  tie := .away

/-- The texts of JSON numbers: an exponent below `1e-5` and from `1e16` on. What is not finite has
no number text there and is written `null`. -/
def Layout.json : Layout where
  isPositional power := decide (-5 ≤ power) && decide (power < 16)
  wholeEnd := ".0"
  zero := "0.0"
  negativeZero := "-0.0"
  nan := "null"
  infinite := "null"
  negativeInfinite := "null"
  tie := .even

/-- The printed form of a number in template output. -/
def format (x : Float) : String := Layout.plain.print x

end Templating.Number
