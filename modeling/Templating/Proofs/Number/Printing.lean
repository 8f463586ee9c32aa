import Templating.Proofs.Number.Digits
import Templating.Proofs.Number.Shortest
import Templating.Proofs.Number.Whole

/-!
# Printed numbers

The text of a finite double in template output is that of a number, and this number is the double
but for the sign of zero. So doubles other than minus zero have the same text only if they are the
same.

Results:
1. `readDecimal?_whole`, `readDecimal?_point`: the digits of a number, without and with a point.
2. `read?_signed`: what begins with a digit, after a sign if there is one, is read as its digits.
3. `parse?_format`: a finite double is read back from its text.
4. `format_ofInt_inj`: integers of 64 bits have the same text if they become the same double.
-/

namespace Templating.Number

namespace Literal

/-! ## 1. Digits -/

theorem readDecimal?_whole {whole : List Char} (h : IsWhole whole) :
    readDecimal? whole = some ⟨digitsValue 0 whole, 0⟩ := by
  have hspan := spanDigits_append h.digits (show EndsDigits [] by rintro c ⟨⟩)
  rw [List.append_nil] at hspan
  rw [readDecimal?, hspan]
  simp only
  rw [if_neg fun hempty => h.nonempty hempty.1]
  rfl

theorem readDecimal?_point {whole fraction : List Char} (h : IsWhole whole)
    (hfraction : AllDigits fraction) :
    readDecimal? (whole ++ '.' :: fraction) =
      some ⟨digitsValue (digitsValue 0 whole) fraction, -(fraction.length : Int)⟩ := by
  have hspan := spanDigits_append hfraction (show EndsDigits [] by rintro c ⟨⟩)
  rw [List.append_nil] at hspan
  rw [readDecimal?, spanDigits_append h.digits (endsDigits_cons rfl fraction)]
  simp only [hspan]
  rw [if_neg fun hempty => h.nonempty hempty.1]
  simp [readExponent?]

/-! ## 2. Signs -/

/-- Neither a sign nor a word stands at the head of a text that begins with a digit. -/
theorem read?_signed (negative : Bool) {c : Char} {rest : List Char} (hc : c.isDigit = true) :
    read? ((if negative then ['-'] else []) ++ c :: rest) =
      (readDecimal? (c :: rest)).map (.decimal negative) := by
  have hlower : c.toLower = c := by
    refine Char.toLower_eq_of_not_isUpper fun hupper => ?_
    simp only [Char.isDigit, Char.isUpper, Bool.and_eq_true, decide_eq_true_eq] at hc hupper
    exact absurd (UInt32.le_trans hupper.1 hc.2) (by decide)
  have hword : ∀ {d : Char} {text : List Char}, d.isDigit = false →
      String.ofList ((c :: rest).map Char.toLower) ≠ String.ofList (d :: text) := by
    intro d text hd heq
    rw [String.ofList_inj, List.map_cons, hlower] at heq
    rw [(List.cons.inj heq).1, hd] at hc
    cases hc
  have hnan := @hword 'n' ['a', 'n'] rfl
  have hinf := @hword 'i' ['n', 'f'] rfl
  have hinfinity := @hword 'i' ['n', 'f', 'i', 'n', 'i', 't', 'y'] rfl
  rw [read?, spanSign_signed negative hc]
  simp only
  rw [if_neg hnan, if_neg (not_or.mpr ⟨hinf, hinfinity⟩)]

/-- A number without an exponent is read by its parts. -/
theorem read?_positional (negative : Bool) {d : Decimal} (hdigits : 0 < d.digits) :
    ∃ d', read? ((if negative then ['-'] else []) ++ (Layout.plain.positional d).toList) =
      some (.decimal negative d') ∧ d'.value = d.value := by
  have hread : ∀ {whole rest : List Char}, IsWhole whole →
      read? ((if negative then ['-'] else []) ++ (whole ++ rest)) =
        (readDecimal? (whole ++ rest)).map (.decimal negative) := by
    intro whole rest hwhole
    cases whole with
    | nil => exact absurd rfl hwhole.nonempty
    | cons c whole => exact read?_signed negative (hwhole.digits c List.mem_cons_self)
  rcases Int.lt_or_le d.exponent 0 with hneg | hnonneg
  · obtain ⟨whole, fraction, htext, hwhole, hfraction, -, hvalue⟩ :=
      Layout.positional_point Layout.plain hdigits hneg
    refine ⟨d, ?_, rfl⟩
    rw [htext, hread hwhole, readDecimal?_point hwhole hfraction, hvalue]
    rfl
  · obtain ⟨whole, htext, hwhole, hvalue⟩ :=
      Layout.positional_whole Layout.plain hdigits hnonneg
    have hend : Layout.plain.wholeEnd.toList = [] := rfl
    refine ⟨⟨digitsValue 0 whole, 0⟩, ?_, ?_⟩
    · rw [htext, hend, hread hwhole, List.append_nil, readDecimal?_whole hwhole]
      rfl
    · have hpower : (10 : ℚ) ^ d.exponent.toNat = 10 ^ d.exponent := by
        rw [← zpow_natCast, Int.toNat_of_nonneg hnonneg]
      rw [Decimal.value, Decimal.value, hvalue, Nat.cast_mul, Nat.cast_pow, Nat.cast_ofNat, hpower,
        zpow_zero, mul_one]

end Literal

/-! ## 3. Doubles -/

/-- A finite double is read back from its text, but for the sign of zero. -/
theorem parse?_format {x : Float} (hx : x.isFinite = true) :
    parse? (format x) = some (unsignZero x) := by
  have hlt := isFinite_iff.mp hx
  obtain ⟨hword, -⟩ := Format.parts_spec Format.double (magnitude x)
  rw [parse?, format, Layout.print, ofFloat_of_isFinite hx]
  simp only
  split
  next hzero =>
    have hmagnitude := (Format.parts_eq_zero_iff _).mp hzero
    have hunsigned : unsignZero x = ofWord false 0 := by
      rw [unsignZero, ← ofWord_magnitude x, hmagnitude]
      cases isNegative x with
      | true => rw [if_pos rfl]
      | false => exact ite_self _
    have htext : (if isNegative x = true then Layout.plain.negativeZero else Layout.plain.zero) =
        "0" := ite_self _
    rw [htext, hunsigned]
    rfl
  next hnonzero =>
    have hmagnitude : magnitude x ≠ 0 := fun hzero =>
      hnonzero ((Format.parts_eq_zero_iff _).mpr hzero)
    have hunsigned : unsignZero x = x := by
      refine if_neg ?_
      rintro rfl
      exact hmagnitude (magnitude_ofWord true (by decide))
    have hsign : (if isNegative x = true then "-" else "").toList =
        if isNegative x then ['-'] else [] := by
      cases isNegative x <;> rfl
    have hpositional : ∀ d, Layout.plain.decimal d = Layout.plain.positional d := fun _ => rfl
    obtain ⟨d, hread, hvalue⟩ := Literal.read?_positional (isNegative x)
      (Decimal.digits_shortest Layout.plain.tie hlt (Nat.pos_of_ne_zero hmagnitude))
    rw [hword, hpositional, String.toList_append, hsign, hread, hunsigned]
    have hnearest := (Decimal.nearest_value hvalue).trans (Decimal.nearest_shortest _ hlt)
    simp only [Option.map_some, Literal.toFloat, hnearest, ofWord_magnitude]

/-! ## 4. Integers -/

/-- Integers of 64 bits have the same text if they become the same double, and only then. -/
theorem format_ofInt_inj {a b : Int} (ha : a.natAbs < 2 ^ 64) (hb : b.natAbs < 2 ^ 64) :
    format (ofInt a) = format (ofInt b) ↔ ofInt a = ofInt b := by
  constructor
  · intro h
    have hparse := congrArg parse? h
    rw [parse?_format (isFinite_ofInt ha), parse?_format (isFinite_ofInt hb), unsignZero_ofInt ha,
      unsignZero_ofInt hb] at hparse
    exact Option.some.inj hparse
  · intro h
    rw [h]

end Templating.Number
