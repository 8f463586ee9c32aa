import Templating.Proofs.Number.Rounding

/-!
# Rounding and order

Rounding keeps the order of numbers, and so do products with a fixed factor that are rounded.

* `Format.value` is the number that a word stands for.

Results:
1. `nearest_mono`: of two ratios, the greater one is not rounded to a smaller word.
2. `value_mono`: greater words stand for greater numbers.
3. `product_mono`: a product does not become smaller when a factor grows. `quotient_le`: a quotient
   by one or more does not exceed the dividend.
-/

namespace Templating.Number

open RoundingLemmas

/-! ## 1. Rounding -/

theorem roundHalfEven_le {a b : Nat} (den : Nat) (h : a ≤ b) :
    roundHalfEven a den ≤ roundHalfEven b den := by
  have hquotient : a / den ≤ b / den := Nat.div_le_div_right h
  rcases Nat.lt_or_eq_of_le hquotient with hlt | heq
  · exact ((roundHalfEven_bounds a den).2.trans hlt).trans (roundHalfEven_bounds b den).1
  · have hmod : a % den ≤ b % den := by
      have ha := Nat.div_add_mod a den
      have hb := Nat.div_add_mod b den
      rw [heq] at ha
      omega
    unfold roundHalfEven
    simp only
    rw [heq]
    split_ifs <;> omega

theorem roundHalfEven_mono {num den num' den' : Nat} (hden : 0 < den) (hden' : 0 < den')
    (h : (num : ℚ) / den ≤ num' / den') : roundHalfEven num den ≤ roundHalfEven num' den' := by
  have hdenQ : (0 : ℚ) < den := Nat.cast_pos.mpr hden
  have hdenQ' : (0 : ℚ) < den' := Nat.cast_pos.mpr hden'
  have hcross : num * den' ≤ num' * den := by
    rw [div_le_div_iff₀ hdenQ hdenQ'] at h
    exact_mod_cast h
  -- Both ratios are brought to the product of the denominators.
  have hnum : roundHalfEven num den = roundHalfEven (num * den') (den * den') := by
    refine roundHalfEven_congr hden (Nat.mul_pos hden hden') ?_
    push_cast
    rw [mul_div_mul_right _ _ hdenQ'.ne']
  have hnum' : roundHalfEven num' den' = roundHalfEven (num' * den) (den * den') := by
    refine roundHalfEven_congr hden' (Nat.mul_pos hden hden') ?_
    push_cast
    rw [mul_comm (den : ℚ), mul_div_mul_right _ _ hdenQ.ne']
  rw [hnum, hnum']
  exact roundHalfEven_le _ hcross

namespace Format

variable {f : Format} {num den num' den' : Nat}

theorem target_mono (hnum : 0 < num) (hden : 0 < den) (hnum' : 0 < num') (hden' : 0 < den')
    (h : (num : ℚ) / den ≤ num' / den') : f.target num den ≤ f.target num' den' := by
  have hlog := Int.log_mono_right (b := 2) (ratio_pos hnum hden) h
  rw [target, target, floorLog2_eq hnum hden, floorLog2_eq hnum' hden']
  omega

/-- Of two ratios, the greater one is not rounded to a smaller word. -/
theorem nearest_mono (f : Format) (hden : 0 < den) (hden' : 0 < den')
    (h : (num : ℚ) / den ≤ num' / den') : f.nearest num den ≤ f.nearest num' den' := by
  rcases Nat.eq_zero_or_pos num with rfl | hnum
  · exact Nat.zero_le _
  have hnum' : 0 < num' := by
    rcases Nat.eq_zero_or_pos num' with rfl | hpos
    · have hratio := ratio_pos hnum hden
      rw [Nat.cast_zero, zero_div] at h
      exact absurd h (not_le.mpr hratio)
    · exact hpos
  rw [nearest_eq f hnum, nearest_eq f hnum']
  refine min_le_min_left _ ?_
  have hleast : f.minExponent ≤ f.target num den := le_max_left _ _
  rcases lt_or_eq_of_le (target_mono (f := f) hnum hden hnum' hden' h) with hlt | heq
  -- The significand carries into the next exponent at most, which the greater word has besides.
  · have hupper := f.significand_le hnum hden
    have hlower := f.binade_le_significand hnum' hden' (hleast.trans_lt hlt)
    generalize roundHalfEven _ _ = m at hupper ⊢
    generalize roundHalfEven _ _ = m' at hlower ⊢
    have hexponent : (f.target num den - f.minExponent).toNat + 1 ≤
        (f.target num' den' - f.minExponent).toNat := by omega
    have hproduct := Nat.mul_le_mul_right f.binade hexponent
    rw [Nat.succ_mul] at hproduct
    rw [word, word]
    omega
  · rw [word, word, heq]
    refine Nat.add_le_add_left (roundHalfEven_mono (scaled_pos num hden _)
      (scaled_pos num' hden' _) ?_) _
    rw [scaled_ratio, scaled_ratio]
    gcongr

/-! ## 2. Words and numbers -/

/-- The number that a finite word stands for. -/
def value (f : Format) (word : Nat) : ℚ := (f.parts word).1 * 2 ^ (f.parts word).2

theorem value_nonneg (f : Format) (word : Nat) : 0 ≤ f.value word := by
  rw [value]
  positivity

theorem value_of_lt {word : Nat} (h : word < f.binade) :
    f.value word = word * 2 ^ f.minExponent := by
  rw [value, parts, if_pos h]

/-- In units of the least subnormal, a number with a leading bit is a natural number. -/
theorem value_of_div {word k : Nat} (h : word / f.binade = k + 1) :
    f.value word = ((f.binade + word % f.binade) * 2 ^ k : Nat) * 2 ^ f.minExponent := by
  have hlarge : ¬ word < f.binade := by
    intro hlt
    rw [Nat.div_eq_of_lt hlt] at h
    cases h
  have hexponent : f.minExponent + ((k + 1 : Nat) : Int) - 1 = k + f.minExponent := by omega
  rw [value, parts, if_neg hlarge, h, hexponent, zpow_add₀ (by norm_num), zpow_natCast]
  push_cast
  ring

/-- The significand of the next exponent is larger than twice any of this one. -/
theorem significand_mul_le {a b j k : Nat} (hbinade : 0 < f.binade) (hj : a / f.binade = j + 1)
    (hk : b / f.binade = k + 1) (h : a ≤ b) :
    (f.binade + a % f.binade) * 2 ^ j ≤ (f.binade + b % f.binade) * 2 ^ k := by
  have hquotient : a / f.binade ≤ b / f.binade := Nat.div_le_div_right h
  rcases Nat.lt_or_eq_of_le hquotient with hlt | heq
  · have hmod : a % f.binade < f.binade := Nat.mod_lt a hbinade
    calc (f.binade + a % f.binade) * 2 ^ j ≤ 2 * f.binade * 2 ^ j :=
          Nat.mul_le_mul_right _ (by omega)
      _ = f.binade * 2 ^ (j + 1) := by ring
      _ ≤ f.binade * 2 ^ k :=
          Nat.mul_le_mul_left _ (Nat.pow_le_pow_right (by decide) (by omega))
      _ ≤ (f.binade + b % f.binade) * 2 ^ k := Nat.mul_le_mul_right _ (Nat.le_add_right _ _)
  · have hmod : a % f.binade ≤ b % f.binade := by
      have ha := Nat.div_add_mod a f.binade
      have hb := Nat.div_add_mod b f.binade
      rw [heq] at ha
      omega
    obtain rfl : j = k := by omega
    exact Nat.mul_le_mul_right _ (by omega)

/-- Greater words stand for greater numbers. -/
theorem value_mono (f : Format) {a b : Nat} (h : a ≤ b) : f.value a ≤ f.value b := by
  have hbinade : 0 < f.binade := Nat.pow_pos (by decide)
  have hpower : (0 : ℚ) ≤ 2 ^ f.minExponent := by positivity
  have hquotient : ∀ {word}, ¬ word < f.binade → ∃ k, word / f.binade = k + 1 := by
    intro word hword
    have hpos := Nat.div_pos (Nat.not_lt.mp hword) hbinade
    exact ⟨word / f.binade - 1, by omega⟩
  by_cases hb : b < f.binade
  · rw [value_of_lt (h.trans_lt hb), value_of_lt hb]
    exact mul_le_mul_of_nonneg_right (Nat.cast_le.mpr h) hpower
  · obtain ⟨k, hk⟩ := hquotient hb
    rw [value_of_div hk]
    by_cases ha : a < f.binade
    · have htwo : 0 < 2 ^ k := Nat.pow_pos (by decide)
      have hle : a ≤ (f.binade + b % f.binade) * 2 ^ k :=
        (ha.le.trans (Nat.le_add_right _ _)).trans (Nat.le_mul_of_pos_right _ htwo)
      rw [value_of_lt ha]
      exact mul_le_mul_of_nonneg_right (Nat.cast_le.mpr hle) hpower
    · obtain ⟨j, hj⟩ := hquotient ha
      rw [value_of_div hj]
      have hle := significand_mul_le hbinade hj hk h
      exact mul_le_mul_of_nonneg_right (Nat.cast_le.mpr hle) hpower

/-! ## 3. Products and quotients -/

theorem product_eq (f : Format) (a b : Nat) :
    ∃ num den : Nat, 0 < den ∧ (num : ℚ) / den = f.value a * f.value b ∧
      f.product a b = f.nearest num den := by
  let ratio := scaled ((f.parts a).1 * (f.parts b).1) 1 ((f.parts a).2 + (f.parts b).2)
  refine ⟨ratio.1, ratio.2, scaled_pos _ Nat.one_pos _, ?_, rfl⟩
  rw [scaled_ratio, value, value, zpow_add₀ (by norm_num)]
  push_cast
  ring

theorem quotient_eq (f : Format) (a : Nat) {b : Nat} (hb : 0 < f.value b) :
    ∃ num den : Nat, 0 < den ∧ (num : ℚ) / den = f.value a / f.value b ∧
      f.quotient a b = f.nearest num den := by
  have hsignificand : 0 < (f.parts b).1 := by
    rcases Nat.eq_zero_or_pos (f.parts b).1 with hzero | hpos
    · rw [value, hzero, Nat.cast_zero, zero_mul] at hb
      exact absurd hb (lt_irrefl 0)
    · exact hpos
  let ratio := scaled (f.parts a).1 (f.parts b).1 ((f.parts a).2 - (f.parts b).2)
  refine ⟨ratio.1, ratio.2, scaled_pos _ hsignificand _, ?_, rfl⟩
  rw [scaled_ratio, value, value, zpow_sub₀ (by norm_num)]
  field_simp

/-- A product does not become smaller when its factors grow. -/
theorem product_mono (f : Format) {a b c d : Nat} (hac : a ≤ c) (hbd : b ≤ d) :
    f.product a b ≤ f.product c d := by
  obtain ⟨num, den, hden, hratio, hproduct⟩ := f.product_eq a b
  obtain ⟨num', den', hden', hratio', hproduct'⟩ := f.product_eq c d
  rw [hproduct, hproduct']
  refine f.nearest_mono hden hden' ?_
  rw [hratio, hratio']
  exact mul_le_mul (f.value_mono hac) (f.value_mono hbd) (f.value_nonneg b) (f.value_nonneg c)

/-- A finite magnitude that is divided by one or more does not grow. -/
theorem quotient_le (f : Format) {a b : Nat} (ha : a < f.infinity) (hb : 1 ≤ f.value b) :
    f.quotient a b ≤ a := by
  obtain ⟨num, den, hden, hratio, hquotient⟩ := f.quotient_eq a (zero_lt_one.trans_le hb)
  have hself := scaled_ratio (f.parts a).1 1 (f.parts a).2
  rw [Nat.cast_one, div_one] at hself
  have hpos := scaled_pos (f.parts a).1 Nat.one_pos (f.parts a).2
  have hnearest := f.nearest_parts ha hpos hself
  rw [hquotient]
  refine (f.nearest_mono hden hpos ?_).trans_eq hnearest
  rw [hratio, hself]
  exact div_le_self (f.value_nonneg a) hb

end Format

end Templating.Number
