import Templating.Number.Layout
import Templating.Proofs.Number.Bits
import Templating.Proofs.Number.Rounding

/-!
# Whole numbers

A double that is a whole number is the double nearest to this number, so it can be turned into an
integer and back. What is lost is the sign of zero.

Results:
1. `ofInt_of_toInt?`: a whole double comes back from its integer, with `unsignZero` for minus zero.
   `isFinite_ofInt`, `unsignZero_ofInt`: an integer of 64 bits becomes a finite double other than
   minus zero.
2. `unsignZero_of_toInt?`: other doubles have no such sign to lose.
3. `format_unsignZero`: the sign of zero is not printed.
-/

namespace Templating.Number

/-- The double with zero for minus zero. -/
def unsignZero (x : Float) : Float := if x = ofWord true 0 then ofWord false 0 else x

/-! ## 1. Integers and back -/

theorem toInt?_minusZero : toInt? (ofWord true 0) = some 0 := by
  decide +kernel

theorem isFinite_of_toInt? {x : Float} {n : Int} (h : toInt? x = some n) : x.isFinite = true := by
  apply Decidable.byContradiction
  intro hinfinite
  rw [toInt?] at h
  rcases ofFloat_of_not_isFinite hinfinite with hnan | ⟨negative, hinfinity⟩
  · rw [hnan] at h
    cases h
  · rw [hinfinity] at h
    cases h

/-- The magnitude of a whole double is the word nearest to its integer. -/
theorem toInt?_eq_some {x : Float} {n : Int} (h : toInt? x = some n) :
    Format.double.nearest n.natAbs 1 = magnitude x ∧
      n = if isNegative x then -(n.natAbs : Int) else n.natAbs := by
  have hfinite := isFinite_of_toInt? h
  have hscaled := RoundingLemmas.scaled_ratio (Format.double.parts (magnitude x)).1 1
    (Format.double.parts (magnitude x)).2
  have hpos := RoundingLemmas.scaled_pos (Format.double.parts (magnitude x)).1 Nat.one_pos
    (Format.double.parts (magnitude x)).2
  rw [toInt?, ofFloat_of_isFinite hfinite] at h
  simp only at h
  generalize (scaled (Format.double.parts (magnitude x)).1 1
    (Format.double.parts (magnitude x)).2).1 = num at h hscaled
  generalize (scaled (Format.double.parts (magnitude x)).1 1
    (Format.double.parts (magnitude x)).2).2 = den at h hscaled hpos
  split at h
  next hwhole =>
    have hvalue : ((num / den : Nat) : ℚ) / (1 : Nat) =
        (Format.double.parts (magnitude x)).1 * 2 ^ (Format.double.parts (magnitude x)).2 := by
      rw [Nat.cast_div (Nat.dvd_of_mod_eq_zero hwhole) (Nat.cast_ne_zero.mpr (Nat.ne_of_gt hpos)),
        Nat.cast_one, div_one, hscaled, Nat.cast_one, div_one]
    have hnearest := Format.nearest_parts Format.double (isFinite_iff.mp hfinite) Nat.one_pos hvalue
    have hn := Option.some.inj h
    have habs : n.natAbs = num / den := by
      rw [← hn]
      split
      · rw [Int.natAbs_neg, Int.natAbs_natCast]
      · rw [Int.natAbs_natCast]
    rw [habs]
    exact ⟨hnearest, hn.symm⟩
  next => cases h

/-- A whole double comes back from its integer, but for the sign of zero. -/
theorem ofInt_of_toInt? {x : Float} {n : Int} (h : toInt? x = some n) : ofInt n = unsignZero x := by
  obtain ⟨hnearest, hsign⟩ := toInt?_eq_some h
  rw [ofInt, ofRatio, hnearest]
  by_cases hzero : n = 0
  · subst hzero
    have hmagnitude : magnitude x = 0 := hnearest.symm
    have hx := ofWord_magnitude x
    rw [hmagnitude] at hx ⊢
    rw [← hx, unsignZero]
    cases isNegative x with
    | true => rfl
    | false => rfl
  · have hnegative : decide (n < 0) = isNegative x := by
      cases hx : isNegative x with
      | true =>
        rw [hx, if_pos rfl] at hsign
        exact decide_eq_true (by omega)
      | false =>
        rw [hx, if_neg Bool.false_ne_true] at hsign
        exact decide_eq_false (by omega)
    have hx : x ≠ ofWord true 0 := by
      rintro rfl
      rw [toInt?_minusZero] at h
      exact hzero (Option.some.inj h).symm
    rw [hnegative, ofWord_magnitude, unsignZero, if_neg hx]

/-- An integer of 64 bits is not too large for a double. -/
theorem nearest_lt_infinity {n : Nat} (h : n < 2 ^ 64) :
    Format.double.nearest n 1 < Format.double.infinity := by
  refine Format.nearest_double_lt Nat.one_pos ?_
  rw [Nat.cast_one, div_one]
  calc (n : ℚ) < 2 ^ (64 : Int) := by exact_mod_cast h
    _ ≤ 2 ^ (1000 : Int) := zpow_le_zpow_right₀ (by norm_num) (by norm_num)

theorem isFinite_ofInt {n : Int} (h : n.natAbs < 2 ^ 64) : (ofInt n).isFinite = true :=
  isFinite_ofWord _ (nearest_lt_infinity h)

/-- No integer becomes minus zero. -/
theorem unsignZero_ofInt {n : Int} (h : n.natAbs < 2 ^ 64) : unsignZero (ofInt n) = ofInt n := by
  rw [unsignZero]
  split
  next hminus =>
    have hmagnitude : magnitude (ofInt n) = 0 := by
      rw [hminus]
      exact magnitude_ofWord true (by decide)
    rw [ofInt, ofRatio, magnitude_ofWord _ (nearest_lt_infinity h)] at hmagnitude
    have hzero : n.natAbs = 0 := by
      by_contra hne
      exact absurd hmagnitude
        (Nat.ne_of_gt (Format.nearest_double_pos (Nat.pos_of_ne_zero hne)))
    rw [Int.natAbs_eq_zero.mp hzero]
    rfl
  next => rfl

/-! ## 2. Other doubles -/

/-- Only a whole double can be minus zero. -/
theorem unsignZero_of_toInt? {x : Float} (h : toInt? x ≠ some 0) : unsignZero x = x := by
  rw [unsignZero, if_neg]
  rintro rfl
  exact h toInt?_minusZero

/-! ## 3. Printing -/

theorem format_unsignZero (x : Float) : format (unsignZero x) = format x := by
  rw [unsignZero]
  split
  next hzero =>
    subst hzero
    decide +kernel
  next => rfl

end Templating.Number
