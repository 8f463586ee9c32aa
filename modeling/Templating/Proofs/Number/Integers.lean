import Templating.Proofs.Number.Whole

/-!
# Integers as doubles

An integer becomes the double nearest to it. Nothing is lost as long as its binary digits, from the
first to the last one that is not zero, fit the significand.

* `IsExact` are the integers that are equal to their doubles.
* `FitsSignificand` are the integers of at most 53 such digits.

Results:
1. `toInt?_ofWord`: the integer of a double that is given by its significand and exponent.
2. `fitsSignificand_of_toInt?`: the integer of a whole double has at most 53 such digits.
3. `isExact_iff`: of the integers of 64 bits, those of at most 53 such digits are equal to their
   doubles. `fitsSignificand_of_le`: among them are all integers up to `2 ^ 53`.
   `exists_toInt?_ofInt`: larger ones do not become less.
-/

namespace Templating.Number

open RoundingLemmas

/-! ## Definitions -/

/-- The integer is equal to the double nearest to it. -/
def IsExact (n : Int) : Prop := toInt? (ofInt n) = some n

instance (n : Int) : Decidable (IsExact n) := inferInstanceAs (Decidable (_ = _))

/-- But for zeros at its end, the integer has at most 53 binary digits. -/
def FitsSignificand (n : Int) : Prop := ∃ m k : Nat, m < 2 ^ 53 ∧ n.natAbs = m * 2 ^ k

/-! ## 1. From parts to integers -/

/-- A double whose significand and exponent give a natural number is whole. -/
theorem toInt?_ofWord (negative : Bool) {m n : Nat} {q : Int}
    (hcanonical : Format.double.Canonical m q)
    (hfinite : Format.double.word m q < Format.double.infinity) (h : (m : ℚ) * 2 ^ q = n) :
    toInt? (ofWord negative (Format.double.word m q)) =
      some (if negative then -(n : Int) else n) := by
  have hparts : Parts.ofFloat (ofWord negative (Format.double.word m q)) =
      .finite negative m q := by
    rw [ofFloat_of_isFinite (isFinite_ofWord negative hfinite), magnitude_ofWord negative hfinite,
      isNegative_ofWord negative hfinite, Format.parts_word _ hcanonical]
  have hpos := scaled_pos m Nat.one_pos q
  have hnum : (scaled m 1 q).1 = n * (scaled m 1 q).2 := by
    have hratio := scaled_ratio m 1 q
    rw [Nat.cast_one, div_one, h, div_eq_iff (Nat.cast_ne_zero.mpr (Nat.ne_of_gt hpos))] at hratio
    exact_mod_cast hratio
  rw [toInt?, hparts]
  simp only
  rw [hnum, Nat.mul_mod_left, if_pos rfl, Nat.mul_div_cancel n hpos]

/-! ## 2. From doubles to integers -/

/-- The integer of a double has the digits of its significand. -/
theorem fitsSignificand_of_toInt? {x : Float} {n : Int} (h : toInt? x = some n) :
    FitsSignificand n := by
  have hfinite := isFinite_of_toInt? h
  obtain ⟨-, hcanonical⟩ := Format.parts_spec Format.double (magnitude x)
  rw [toInt?, ofFloat_of_isFinite hfinite] at h
  generalize (Format.double.parts (magnitude x)).1 = m at h hcanonical
  generalize (Format.double.parts (magnitude x)).2 = q at h hcanonical
  have hm : m < 2 ^ 53 := by
    have hbinade : Format.double.binade = 2 ^ 52 := rfl
    rcases hcanonical with ⟨-, hlt⟩ | ⟨-, -, hlt⟩
    · omega
    · omega
  simp only at h
  split at h
  next =>
    have habs : n.natAbs = (scaled m 1 q).1 / (scaled m 1 q).2 := by
      rw [← Option.some.inj h]
      split
      · rw [Int.natAbs_neg, Int.natAbs_natCast]
      · rw [Int.natAbs_natCast]
    cases q with
    | ofNat k => exact ⟨m, k, hm, by simpa [scaled] using habs⟩
    | negSucc k =>
      refine ⟨n.natAbs, 0, ?_, (Nat.mul_one _).symm⟩
      have hdiv : n.natAbs ≤ m := by
        rw [habs, scaled]
        exact (Nat.div_le_self _ _).trans_eq (Nat.mul_one m)
      omega
  next => cases h

/-! ## 3. Exact integers -/

/-- Shifted until its first digit is the leading one, a significand is canonical. -/
theorem exists_canonical {m k : Nat} (hm : m < 2 ^ 53) (hlarge : m * 2 ^ k < 2 ^ 64) :
    ∃ s q, Format.double.Canonical s q ∧ Format.double.word s q < Format.double.infinity ∧
      (s : ℚ) * 2 ^ q = (m * 2 ^ k : Nat) := by
  have hbinade : Format.double.binade = 2 ^ 52 := rfl
  have hleast : Format.double.minExponent = -1074 := rfl
  have hinfinity : Format.double.infinity = 2047 * 2 ^ 52 := rfl
  rcases Nat.eq_zero_or_pos m with rfl | hpos
  · exact ⟨0, -1074, Or.inl ⟨rfl, by decide⟩, by decide, by simp⟩
  · have hlog : m.log2 < 53 := (Nat.log2_lt (Nat.ne_of_gt hpos)).mpr hm
    obtain ⟨shift, hshift⟩ := Nat.exists_eq_add_of_le (Nat.le_of_lt_succ hlog)
    have hlo := Nat.log2_self_le (Nat.ne_of_gt hpos)
    have hhi := Nat.lt_log2_self (n := m)
    have hleading : 2 ^ 52 ≤ m * 2 ^ shift := by
      rw [hshift, Nat.pow_add]
      exact Nat.mul_le_mul_right _ hlo
    have hbelow : m * 2 ^ shift < 2 * 2 ^ 52 := by
      rw [hshift, Nat.pow_add, ← Nat.mul_assoc, ← Nat.pow_succ']
      exact Nat.mul_lt_mul_of_pos_right hhi (Nat.pow_pos (by decide))
    have hsum : m.log2 + k < 64 := by
      refine (Nat.pow_lt_pow_iff_right (by decide : 1 < 2)).mp ?_
      rw [Nat.pow_add]
      exact (Nat.mul_le_mul_right _ hlo).trans_lt hlarge
    have hexponent : ((k : Int) - shift - Format.double.minExponent).toNat ≤ 1085 := by omega
    refine ⟨m * 2 ^ shift, (k : Int) - shift, Or.inr ⟨by omega, hleading, hbelow⟩, ?_, ?_⟩
    · have hproduct := Nat.mul_le_mul_right (2 ^ 52) hexponent
      rw [Format.word, hbinade, hinfinity]
      omega
    · have htwo : (2 : ℚ) ≠ 0 := by norm_num
      rw [zpow_sub₀ htwo, zpow_natCast, zpow_natCast]
      push_cast
      field_simp

/-- The double nearest to such an integer has its canonical parts. -/
theorem isExact_of_fitsSignificand {n : Int} (hlarge : n.natAbs < 2 ^ 64)
    (h : FitsSignificand n) : IsExact n := by
  obtain ⟨m, k, hm, habs⟩ := h
  rw [habs] at hlarge
  obtain ⟨s, q, hcanonical, hfinite, hvalue⟩ := exists_canonical hm hlarge
  rw [← habs] at hvalue
  have hnearest : Format.double.nearest n.natAbs 1 = Format.double.word s q := by
    refine Format.nearest_parts _ hfinite Nat.one_pos ?_
    rw [Format.parts_word _ hcanonical, hvalue, Nat.cast_one, div_one]
  rw [IsExact, ofInt, ofRatio, hnearest, toInt?_ofWord _ hcanonical hfinite hvalue]
  congr 1
  by_cases hn : n < 0
  · rw [if_pos (decide_eq_true hn)]
    omega
  · rw [if_neg (by simpa using hn)]
    omega

/-- Which integers are equal to their doubles. -/
theorem isExact_iff {n : Int} (hlarge : n.natAbs < 2 ^ 64) : IsExact n ↔ FitsSignificand n :=
  ⟨fitsSignificand_of_toInt?, isExact_of_fitsSignificand hlarge⟩

theorem fitsSignificand_of_le {n : Int} (h : n.natAbs ≤ 2 ^ 53) : FitsSignificand n := by
  rcases Nat.lt_or_eq_of_le h with hlt | heq
  · exact ⟨n.natAbs, 0, hlt, (Nat.mul_one _).symm⟩
  · exact ⟨1, 53, by decide, by rw [heq, Nat.one_mul]⟩

/-- From `2 ^ 53` on, an integer becomes a whole double that is not less in magnitude. -/
theorem exists_toInt?_ofInt {n : Int} (hlarge : n.natAbs < 2 ^ 64) (h : 2 ^ 53 ≤ n.natAbs) :
    ∃ m, toInt? (ofInt n) = some m ∧ 2 ^ 53 ≤ m.natAbs := by
  have hbinade : Format.double.binade = 2 ^ 52 := rfl
  have hleast : Format.double.minExponent = -1074 := rfl
  have hfinite := nearest_lt_infinity hlarge
  have hword := Format.word_le_nearest_double h
  obtain ⟨hparts, hcanonical⟩ := Format.parts_spec Format.double (Format.double.nearest n.natAbs 1)
  generalize (Format.double.parts (Format.double.nearest n.natAbs 1)).1 = s at hparts hcanonical
  generalize (Format.double.parts (Format.double.nearest n.natAbs 1)).2 = q at hparts hcanonical
  rw [← hparts] at hfinite hword
  -- The word is large enough for an exponent of its own.
  have hexponent : 1 ≤ q ∧ 2 ^ 52 ≤ s := by
    rw [Format.word, Format.word, hbinade, hleast] at hword
    rcases hcanonical with ⟨hq, hs⟩ | ⟨hq, hs, hbelow⟩
    · omega
    · omega
  obtain ⟨k, rfl⟩ : ∃ k : Nat, q = k := ⟨q.toNat, by omega⟩
  have hvalue : (s : ℚ) * 2 ^ (k : Int) = (s * 2 ^ k : Nat) := by
    rw [zpow_natCast]
    push_cast
    rfl
  rw [ofInt, ofRatio, ← hparts]
  refine ⟨_, toInt?_ofWord _ hcanonical hfinite hvalue, ?_⟩
  have hproduct : 2 ^ 52 * 2 ^ 1 ≤ s * 2 ^ k :=
    Nat.mul_le_mul hexponent.2 (Nat.pow_le_pow_right (by decide) (by omega))
  split <;> omega

/-- The first integer after `2 ^ 53` becomes the one before it. -/
theorem ofInt_collapses : ofInt (2 ^ 53 + 1) = ofInt (2 ^ 53) := by
  decide +kernel

end Templating.Number
