import Templating.Proofs.Evaluation.Basic
import Templating.Proofs.Number.Comparison
import Templating.Proofs.Number.Printing
import Templating.Proofs.Text.Words

/-!
# Literals of printed numbers

A template can spell a number as a text. The printed form of every double is such a text, also with
blanks around it, and it stands for the double that was printed. What is lost is the sign of zero.

Results:
1. `blankFree_format`: a printed number holds no blanks. `parse?_format_all`: it is read back,
   finite or not.
2. `evaluate_printed`: a literal that is a printed number evaluates to this number.
-/

namespace Templating

namespace Number

open Float.Model.UnpackedFloat
open Text (BlankFree)

/-! ## 1. Printed numbers -/

theorem format_nan : format Number.nan = "NaN" := rfl

theorem format_infinity (negative : Bool) :
    format (infinity negative) = if negative then "-Infinity" else "Infinity" := by
  cases negative <;> rfl

theorem AllDigits.blankFree {ds : List Char} (h : AllDigits ds) : BlankFree ds :=
  fun c hc => Text.isBlank_of_isDigit (h c hc)

/-- The digits of a number and its point are no blanks. -/
theorem blankFree_positional {d : Decimal} (hdigits : 0 < d.digits) :
    BlankFree (Layout.plain.positional d).toList := by
  have hpoint : BlankFree ['.'] := Text.blankFree_of_all rfl
  rcases Int.lt_or_le d.exponent 0 with hneg | hnonneg
  · obtain ⟨whole, fraction, htext, hwhole, hfraction, -⟩ :=
      Layout.positional_point Layout.plain hdigits hneg
    rw [htext, List.append_cons]
    exact (hwhole.digits.blankFree.append hpoint).append hfraction.blankFree
  · obtain ⟨whole, htext, hwhole, -⟩ := Layout.positional_whole Layout.plain hdigits hnonneg
    rw [htext]
    exact hwhole.digits.blankFree.append nofun

/-- A printed number holds no blanks. -/
theorem blankFree_format (x : Float) : BlankFree (format x).toList := by
  by_cases hx : x.isFinite = true
  · have hlt := isFinite_iff.mp hx
    obtain ⟨hword, -⟩ := Format.parts_spec Format.double (magnitude x)
    rw [format, Layout.print, ofFloat_of_isFinite hx]
    simp only
    split
    next =>
      rw [show (if isNegative x = true then Layout.plain.negativeZero else Layout.plain.zero) = "0"
        from ite_self _]
      exact Text.blankFree_of_all rfl
    next hnonzero =>
      have hpos : 0 < magnitude x := Nat.pos_of_ne_zero fun hzero =>
        hnonzero ((Format.parts_eq_zero_iff _).mpr hzero)
      have hsign : BlankFree (if isNegative x = true then "-" else "").toList := by
        cases isNegative x <;> exact Text.blankFree_of_all rfl
      rw [hword, String.toList_append]
      exact hsign.append
        (blankFree_positional (Decimal.digits_shortest Layout.plain.tie hlt hpos))
  · rcases eq_of_not_isFinite hx with rfl | ⟨negative, rfl⟩
    · rw [format_nan]
      exact Text.blankFree_of_all rfl
    · rw [format_infinity]
      cases negative <;> exact Text.blankFree_of_all rfl

/-- Every double is read back from its text, but for the sign of zero. -/
theorem parse?_format_all (x : Float) : parse? (format x) = some (unsignZero x) := by
  by_cases hx : x.isFinite = true
  · exact parse?_format hx
  · have hsame : unsignZero x = x := by
      refine if_neg ?_
      rintro rfl
      exact hx (isFinite_ofWord true (by decide))
    rw [hsame]
    rcases eq_of_not_isFinite hx with rfl | ⟨negative, rfl⟩
    · rw [format_nan]
      rfl
    · rw [format_infinity]
      cases negative <;> rfl

end Number

/-! ## 2. Literals -/

/-- A literal whose text is a printed number, with any blanks around it, evaluates to this number,
with zero for minus zero: it never fails, whatever the number. The value compares equal to the
number, if it is one, and is printed as before. -/
theorem evaluate_printed (natives : Natives) (chain : Chain) (x : Float) {before after : String}
    (hbefore : ∀ c ∈ before.toList, Text.isBlank c = true)
    (hafter : ∀ c ∈ after.toList, Text.isBlank c = true) :
    ((Node.numeric (.text (before ++ Number.format x ++ after))).evaluate natives).start chain =
        (.ok (.numeric (Number.unsignZero x)), chain) ∧
      (x == Number.unsignZero x) = !x.isNaN ∧
      (Value.numeric (Number.unsignZero x)).print = Number.format x := by
  have hvalue : (Numeral.text (before ++ Number.format x ++ after)).value =
      .ok (.numeric (Number.unsignZero x)) := by
    rw [Numeral.value, Text.trim_between hbefore hafter (Number.blankFree_format x),
      Number.parse?_format_all]
  refine ⟨?_, ?_, Number.format_unsignZero x⟩
  · rw [Node.evaluate, hvalue]
    rfl
  · rw [Bool.eq_iff_iff, Number.beq_iff, Number.unsignZero_unsignZero, Bool.not_eq_true']
    exact and_iff_left rfl

/-- Blanks that are not ASCII, around a number that is not finite. -/
theorem evaluate_printed_infinity :
    (∀ c ∈ "\u00A0\t".toList, Text.isBlank c = true) ∧
      (∀ c ∈ "\u3000".toList, Text.isBlank c = true) ∧
      ((Node.numeric (.text "\u00A0\t-Infinity\u3000")).evaluate Natives.none).start Chain.empty =
        (.ok (.numeric (Number.infinity true)), Chain.empty) := by
  have hbefore : ∀ c ∈ "\u00A0\t".toList, Text.isBlank c = true := List.all_eq_true.mp rfl
  have hafter : ∀ c ∈ "\u3000".toList, Text.isBlank c = true := List.all_eq_true.mp rfl
  obtain ⟨hvalue, -⟩ :=
    evaluate_printed Natives.none Chain.empty (Number.infinity true) hbefore hafter
  exact ⟨hbefore, hafter, hvalue⟩

end Templating
