import Templating.Proofs.Number.Bits
import Templating.Proofs.Number.Digits
import Templating.Proofs.Number.Shortest

/-!
# Numbers printed with a point

Layouts that end whole numbers in `.0` write a point in every number without an exponent. The zero
after the point gives another decimal, but one of the same value.

Results:
1. `positional_pointed`: digits, a point and digits, whose decimal has the value that was printed.
2. `pointed_print`: a finite double in the layout in which nothing has an exponent.
-/

namespace Templating.Number.Layout

open Number.Literal

theorem positional_pointed (layout : Layout) (hend : layout.wholeEnd = ".0") {d : Decimal}
    (hdigits : 0 < d.digits) :
    ∃ whole fraction, (layout.positional d).toList = whole ++ '.' :: fraction ∧ IsWhole whole ∧
      AllDigits fraction ∧ fraction ≠ [] ∧
      (⟨digitsValue (digitsValue 0 whole) fraction, -(fraction.length : Int)⟩ : Decimal).value =
        d.value := by
  rcases Int.lt_or_le d.exponent 0 with hneg | hnonneg
  · obtain ⟨whole, fraction, htext, hwhole, hfraction, hnonempty, hvalue⟩ :=
      layout.positional_point hdigits hneg
    exact ⟨whole, fraction, htext, hwhole, hfraction, hnonempty, congrArg Decimal.value hvalue⟩
  · obtain ⟨whole, htext, hwhole, hwholeValue⟩ := layout.positional_whole hdigits hnonneg
    have hzero : digitsValue (digitsValue 0 whole) ['0'] =
        d.digits * 10 ^ d.exponent.toNat * 10 := by
      rw [hwholeValue]
      exact digitsValue_zeros _ 1
    have hpower : (10 : ℚ) ^ d.exponent.toNat = 10 ^ d.exponent := by
      rw [← zpow_natCast, Int.toNat_of_nonneg hnonneg]
    refine ⟨whole, ['0'], by rw [htext, hend]; rfl, hwhole, allDigits_zeros 1, by decide, ?_⟩
    rw [hzero, Decimal.value, Decimal.value, Nat.cast_mul, Nat.cast_mul, Nat.cast_pow,
      Nat.cast_ofNat, hpower, List.length_singleton, Nat.cast_one, zpow_neg_one,
      mul_inv_cancel_right₀ (by norm_num)]

theorem pointed_print {x : Float} (hx : x.isFinite = true) :
    ∃ whole fraction, (pointed.print x).toList =
        (if isNegative x then ['-'] else []) ++ (whole ++ '.' :: fraction) ∧
      IsWhole whole ∧ AllDigits fraction ∧ fraction ≠ [] ∧
      (⟨digitsValue (digitsValue 0 whole) fraction, -(fraction.length : Int)⟩ : Decimal).nearest
        Format.double = magnitude x := by
  have hlt := isFinite_iff.mp hx
  obtain ⟨hword, -⟩ := Format.parts_spec Format.double (magnitude x)
  unfold print
  rw [ofFloat_of_isFinite hx]
  simp only
  split
  next hzero =>
    have hmagnitude := (Format.parts_eq_zero_iff _).mp hzero
    refine ⟨['0'], ['0'], ?_, isWhole_repr 0, allDigits_zeros 1, by decide, ?_⟩
    · cases isNegative x <;> rfl
    · rw [hmagnitude]
      rfl
  next hnonzero =>
    have hpos : 0 < magnitude x :=
      Nat.pos_of_ne_zero fun hzero => hnonzero ((Format.parts_eq_zero_iff _).mpr hzero)
    have hsign : (if isNegative x = true then "-" else "").toList =
        if isNegative x then ['-'] else [] := by
      cases isNegative x <;> rfl
    obtain ⟨whole, fraction, htext, hwhole, hfraction, hnonempty, hvalue⟩ :=
      positional_pointed pointed rfl (Decimal.digits_shortest pointed.tie hlt hpos)
    have hdecimal : ∀ d, pointed.decimal d = pointed.positional d := fun _ => rfl
    refine ⟨whole, fraction, ?_, hwhole, hfraction, hnonempty,
      (Decimal.nearest_value hvalue).trans (Decimal.nearest_shortest _ hlt)⟩
    rw [hword, String.toList_append, hsign, hdecimal, htext]

end Templating.Number.Layout
