import Templating.Number.Scaling
import Templating.Proofs.Number.Digits
import Templating.Proofs.Number.Order
import Templating.Proofs.Number.Shortest
import Templating.Proofs.Number.Whole

/-!
# Decimals by multiplication stay finite

Reading a decimal by multiplication may miss the nearest double, but what is printed never becomes
too large on the way. The errors of the single steps need not be estimated for this: products are
monotone, so for every power of ten the largest significand below a bound decides.

* `scaleLimit` is that bound. It lies below the largest double but rounds to it.

Results:
1. `takeDigits_of_le`: digits that fit are all taken. `takeDigits_le`: what is taken is never more
   than the text says.
2. `scale_lt`: what is below the limit stays finite.
3. `shortest_staysFinite`: so does what is printed for a finite double.
-/

namespace Templating.Number

open Literal

/-! ## 1. Digits that fit -/

/-- Digits that fit are all taken. -/
theorem takeDigits_of_le {start : Nat} {cs : List Char}
    (h : digitsValue start cs ≤ maxSignificand) :
    takeDigits start cs = (digitsValue start cs, []) := by
  induction cs generalizing start with
  | nil => rfl
  | cons c cs ih =>
    have hnext := (le_digitsValue (10 * start + (c.toNat - '0'.toNat)) cs).trans h
    rw [takeDigits, if_neg (Nat.not_lt.mpr hnext)]
    exact ih h

theorem takeDigits_bounded {start : Nat} (h : start ≤ maxSignificand) (cs : List Char) :
    (takeDigits start cs).1 ≤ maxSignificand := by
  induction cs generalizing start with
  | nil => exact h
  | cons c cs ih =>
    rw [takeDigits]
    split
    next => exact h
    next hfits => exact ih (Nat.not_lt.mp hfits)

theorem takeDigits_length (start : Nat) (cs : List Char) :
    (takeDigits start cs).2.length ≤ cs.length := by
  induction cs generalizing start with
  | nil => exact Nat.le_refl _
  | cons c cs ih =>
    rw [takeDigits]
    split
    next => exact Nat.le_refl _
    next => exact (ih _).trans (Nat.le_succ _)

/-- What is taken is never more than the text says, with zeros for the digits that are left. -/
theorem takeDigits_le (start : Nat) (cs : List Char) :
    (takeDigits start cs).1 * 10 ^ (takeDigits start cs).2.length ≤ digitsValue start cs := by
  induction cs generalizing start with
  | nil => exact Nat.le_of_eq (Nat.mul_one _)
  | cons c cs ih =>
    rw [takeDigits]
    split
    next => exact mul_pow_le_digitsValue start (c :: cs)
    next => exact ih _

/-! ## 2. Scaling -/

/-- A bound on decimals that stay finite: it lies below the largest double but rounds to it. -/
def scaleLimit : Nat := 179769313486231561 * Nat.pow 10 291

/-- The largest significand of 64 bits that stays below the limit with a power of ten. -/
def greatestBelow (n : Nat) : Nat := min maxSignificand ((scaleLimit - 1) / Nat.pow 10 n)

theorem raise_greatestBelow : ∀ n < maxPower + 1,
    Format.double.product (Format.double.nearest (greatestBelow n) 1) (powerOfTen n) <
      Format.double.infinity := by
  decide +kernel

theorem one_le_powerOfTen (n : Nat) : 1 ≤ Format.double.value (powerOfTen n) := by
  have hone : Format.double.value (powerOfTen 0) = 1 := by
    have hparts : Format.double.parts (powerOfTen 0) = (2 ^ 52, -52) := by decide +kernel
    rw [Format.value, hparts]
    norm_num
  rw [← hone]
  refine Format.value_mono _ (Format.nearest_mono _ Nat.one_pos Nat.one_pos ?_)
  have hpower : Nat.pow 10 0 ≤ Nat.pow 10 n := Nat.pow_le_pow_right (by decide) (Nat.zero_le n)
  gcongr

theorem quotient_powerOfTen_le {word : Nat} (h : word < Format.double.infinity) (n : Nat) :
    Format.double.quotient word (powerOfTen n) ≤ word :=
  Format.quotient_le _ h (one_le_powerOfTen n)

theorem lower_le {word : Nat} (h : word < Format.double.infinity) (n : Nat) :
    lower word n ≤ word := by
  induction word, n using lower.induct with
  | case1 word n hn =>
    rw [lower, if_pos hn]
    exact quotient_powerOfTen_le h n
  | case2 n hn =>
    rw [lower, if_neg hn, if_pos rfl]
  | case3 word n hn hword ih =>
    have hquotient := quotient_powerOfTen_le h maxPower
    rw [lower, if_neg hn, if_neg hword]
    exact (ih (hquotient.trans_lt h)).trans hquotient

theorem raise_lt {significand n : Nat} (hfits : significand ≤ maxSignificand)
    (h : significand * 10 ^ n < scaleLimit) :
    raise (Format.double.nearest significand 1) n < Format.double.infinity := by
  have hpower : 0 < Nat.pow 10 n := Nat.pow_pos (by decide)
  rw [raise]
  split
  next hn =>
    have hgreatest : significand ≤ greatestBelow n := by
      refine Nat.le_min.mpr ⟨hfits, (Nat.le_div_iff_mul_le hpower).mpr ?_⟩
      exact Nat.le_sub_one_of_lt h
    have hnearest : Format.double.nearest significand 1 ≤
        Format.double.nearest (greatestBelow n) 1 :=
      Format.nearest_mono _ Nat.one_pos Nat.one_pos (by gcongr)
    exact (Format.product_mono _ hnearest (Nat.le_refl _)).trans_lt
      (raise_greatestBelow n (Nat.lt_succ_of_le hn))
  next hn =>
    -- Only zero stays below the limit with a power that the table does not reach.
    have hzero : significand = 0 := by
      by_contra hne
      have hlimit : scaleLimit < Nat.pow 10 (maxPower + 1) := by decide +kernel
      have hbeyond : maxPower + 1 ≤ n := Nat.not_le.mp hn
      generalize maxPower + 1 = m at hlimit hbeyond
      have hlarge : 10 ^ m ≤ significand * 10 ^ n :=
        (Nat.pow_le_pow_right (by decide) hbeyond).trans
          (Nat.le_mul_of_pos_left _ (Nat.pos_of_ne_zero hne))
      exact absurd (hlarge.trans_lt h) (Nat.lt_asymm hlimit)
    have hnearest : Format.double.nearest 0 1 = 0 := rfl
    rw [hzero, hnearest, if_pos rfl]
    decide

/-- What is below the limit stays finite. -/
theorem scale_lt {significand : Nat} {exponent : Int} (hfits : significand ≤ maxSignificand)
    (h : (significand : ℚ) * 10 ^ exponent < scaleLimit) :
    scale significand exponent < Format.double.infinity := by
  cases exponent with
  | ofNat n =>
    refine raise_lt hfits ?_
    rw [Int.ofNat_eq_natCast, zpow_natCast] at h
    exact_mod_cast h
  | negSucc n =>
    have hbits : significand < 2 ^ 64 := by
      rw [maxSignificand] at hfits
      omega
    have hfinite := nearest_lt_infinity hbits
    exact (lower_le hfinite _).trans_lt hfinite

theorem lower_le_infinity (word n : Nat) : lower word n ≤ Format.double.infinity := by
  induction word, n using lower.induct with
  | case1 word n hn =>
    rw [lower, if_pos hn]
    exact Format.nearest_le _ _ _
  | case2 n hn =>
    rw [lower, if_neg hn, if_pos rfl]
    exact Nat.zero_le _
  | case3 word n hn hword ih =>
    rw [lower, if_neg hn, if_neg hword]
    exact ih

theorem scale_le (significand : Nat) (exponent : Int) :
    scale significand exponent ≤ Format.double.infinity := by
  cases exponent with
  | ofNat n =>
    rw [scale, raise]
    split_ifs
    · exact Format.nearest_le _ _ _
    · exact Nat.zero_le _
    · exact Nat.le_refl _
  | negSucc n => exact lower_le_infinity _ _

/-! ## 3. Printed decimals -/

namespace Decimal

/-- A decimal stays finite when it is read: it is below the limit, or its digits fit and come to
something finite. -/
def StaysFinite (d : Decimal) : Prop :=
  d.value < scaleLimit ∨
    d.digits ≤ maxSignificand ∧ scale d.digits d.exponent < Format.double.infinity

/-- What is taken of the digits of such a decimal comes to something finite. -/
theorem StaysFinite.scale_takeDigits {start : Nat} {cs : List Char} {exponent : Int}
    (hstart : start ≤ maxSignificand)
    (h : (⟨digitsValue start cs, exponent - cs.length⟩ : Decimal).StaysFinite) :
    scale (takeDigits start cs).1
      (exponent - (cs.length - (takeDigits start cs).2.length : Nat)) <
        Format.double.infinity := by
  rcases h with hlimit | ⟨hfits, hfinite⟩
  · refine scale_lt (takeDigits_bounded hstart cs) (lt_of_le_of_lt ?_ hlimit)
    have hlength := takeDigits_length start cs
    have htaken := takeDigits_le start cs
    generalize (takeDigits start cs).1 = taken at htaken
    generalize (takeDigits start cs).2.length = left at hlength htaken
    have hten : (10 : ℚ) ≠ 0 := by norm_num
    have hexponent : exponent - (cs.length - left : Nat) = left + (exponent - cs.length) := by omega
    rw [hexponent, zpow_add₀ hten, ← mul_assoc, zpow_natCast, value]
    gcongr
    exact_mod_cast htaken
  · rw [takeDigits_of_le hfits]
    exact hfinite

theorem nearest_scaleLimit :
    Format.double.nearest scaleLimit 1 = Format.double.infinity - 1 := by
  decide +kernel

/-- What is printed for a word under the largest one is below the limit. -/
theorem shortest_lt (tie : Tie) {word : Nat} (hword : word < Format.double.infinity - 1) :
    (shortest Format.double tie word).value < scaleLimit := by
  by_contra hlarge
  have hnearest := nearest_shortest tie (hword.trans_le (Nat.sub_le _ 1))
  generalize shortest Format.double tie word = d at hlarge hnearest
  have hden : 0 < Nat.pow 10 (-d.exponent).toNat := Nat.pow_pos (by decide)
  have hle : Format.double.nearest scaleLimit 1 ≤ d.nearest Format.double := by
    rw [nearest_decimal]
    refine Format.nearest_mono _ Nat.one_pos hden ?_
    rw [value_eq_ratio, Nat.cast_one, div_one]
    exact not_lt.mp hlarge
  rw [nearest_scaleLimit, hnearest] at hle
  exact absurd hword (Nat.not_lt.mpr hle)

theorem shortest_largest (tie : Tie) :
    shortest Format.double tie (Format.double.infinity - 1) = ⟨17976931348623157, 292⟩ := by
  cases tie <;> decide +kernel

/-- What is printed for a finite word stays finite when it is read. -/
theorem shortest_staysFinite (tie : Tie) {word : Nat} (hword : word < Format.double.infinity) :
    (shortest Format.double tie word).StaysFinite := by
  rcases Nat.lt_or_eq_of_le (Nat.le_sub_one_of_lt hword) with hlt | rfl
  · exact Or.inl (shortest_lt tie hlt)
  · rw [shortest_largest]
    exact Or.inr ⟨by decide, by decide +kernel⟩

end Decimal

end Templating.Number
