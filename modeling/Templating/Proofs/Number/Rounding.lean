import Mathlib.Algebra.Order.Field.Power
import Mathlib.Data.Int.Log
import Mathlib.Data.Rat.Floor
import Mathlib.Tactic.FieldSimp
import Mathlib.Tactic.Linarith
import Mathlib.Tactic.Positivity
import Mathlib.Tactic.Ring
import Templating.Number.Decimal

/-!
# Rounding to a format

The word nearest to a ratio depends on the rational number only, and the number that a word stands
for is nearest to that word.

Results:
1. `floorLog2_eq`: the exponent of a ratio is the binary logarithm of the rational number.
2. `nearest_congr`: equal rational numbers have the same nearest word.
3. `parts_spec`, `parts_word`: words and canonical parts determine each other. `nearest_parts`: a
   number of the format is rounded to its own word.
4. `nearest_decimal`: the nearest word of a decimal is that of its rational number, also where its
   exponent is far outside of the format. `nearest_double_lt`: what is not too large stays finite.
   `nearest_double_pos`: a positive natural number stays positive. `word_le_nearest_double`: one
   that is at least `2 ^ 53` stays so.
-/

namespace Templating.Number

/-! ## 1. Scaling and logarithms -/

namespace RoundingLemmas

theorem scaled_pos (num : Nat) {den : Nat} (hden : 0 < den) (s : Int) : 0 < (scaled num den s).2 :=
  Nat.mul_pos hden (Nat.pow_pos (by decide))

/-- Scaling multiplies the rational number by a power of two. -/
theorem scaled_ratio (num den : Nat) (s : Int) :
    ((scaled num den s).1 : ℚ) / (scaled num den s).2 = num / den * 2 ^ s := by
  rw [scaled]
  cases s with
  | ofNat k =>
    have hneg : (-(Int.ofNat k)).toNat = 0 := by simp
    rw [hneg]
    simp only [Int.ofNat_eq_natCast, Int.toNat_natCast, Nat.pow_eq, Nat.cast_mul, Nat.cast_pow,
      Nat.cast_ofNat, pow_zero, mul_one, zpow_natCast]
    ring
  | negSucc k =>
    have hneg : (-(Int.negSucc k)).toNat = k + 1 := rfl
    have hpos : (Int.negSucc k).toNat = 0 := rfl
    rw [hneg, hpos, zpow_negSucc]
    simp only [Nat.pow_eq, Nat.cast_mul, Nat.cast_pow, Nat.cast_ofNat, pow_zero, mul_one]
    rw [div_mul_eq_div_div, div_eq_mul_inv (_ / _)]

theorem ratio_pos {num den : Nat} (hnum : 0 < num) (hden : 0 < den) : (0 : ℚ) < num / den :=
  div_pos (Nat.cast_pos.mpr hnum) (Nat.cast_pos.mpr hden)

theorem zpow_log2_le {n : Nat} (hn : 0 < n) : (2 : ℚ) ^ (n.log2 : Int) ≤ n := by
  rw [zpow_natCast]
  exact_mod_cast Nat.log2_self_le (Nat.ne_of_gt hn)

theorem lt_zpow_log2 (n : Nat) : (n : ℚ) < 2 ^ ((n.log2 : Int) + 1) := by
  have h := Nat.lt_log2_self (n := n)
  have hcast : ((n.log2 : Int) + 1) = ((n.log2 + 1 : Nat) : Int) := rfl
  rw [hcast, zpow_natCast]
  exact_mod_cast h

/-- The logarithms of both parts of a ratio determine that of the ratio but for one. -/
theorem log_ratio_bounds {num den : Nat} (hnum : 0 < num) (hden : 0 < den) :
    (2 : ℚ) ^ ((num.log2 : Int) - den.log2 - 1) ≤ num / den ∧
      (num : ℚ) / den < 2 ^ ((num.log2 : Int) - den.log2 + 1) := by
  have hdenpos : (0 : ℚ) < den := Nat.cast_pos.mpr hden
  have htwo : (2 : ℚ) ≠ 0 := by norm_num
  have hnumlo := zpow_log2_le hnum
  have hnumhi := lt_zpow_log2 num
  have hdenlo := zpow_log2_le hden
  have hdenhi := lt_zpow_log2 den
  constructor
  · rw [le_div_iff₀ hdenpos]
    calc (2 : ℚ) ^ ((num.log2 : Int) - den.log2 - 1) * den
        ≤ 2 ^ ((num.log2 : Int) - den.log2 - 1) * 2 ^ ((den.log2 : Int) + 1) := by gcongr
      _ = 2 ^ (num.log2 : Int) := by rw [← zpow_add₀ htwo]; congr 1; ring
      _ ≤ num := hnumlo
  · rw [div_lt_iff₀ hdenpos]
    calc (num : ℚ) < 2 ^ ((num.log2 : Int) + 1) := hnumhi
      _ = 2 ^ ((num.log2 : Int) - den.log2 + 1) * 2 ^ (den.log2 : Int) := by
        rw [← zpow_add₀ htwo]; congr 1; ring
      _ ≤ 2 ^ ((num.log2 : Int) - den.log2 + 1) * den := by gcongr

end RoundingLemmas

open RoundingLemmas

/-- The exponent of a ratio is the binary logarithm of the rational number. -/
theorem floorLog2_eq {num den : Nat} (hnum : 0 < num) (hden : 0 < den) :
    floorLog2 num den = Int.log 2 ((num : ℚ) / den) := by
  have hratio := ratio_pos hnum hden
  obtain ⟨hlo, hhi⟩ := log_ratio_bounds hnum hden
  have hlogLo : (num.log2 : Int) - den.log2 - 1 ≤ Int.log 2 ((num : ℚ) / den) := by
    rw [← Int.zpow_le_iff_le_log (by decide) hratio]
    exact_mod_cast hlo
  have hlogHi : Int.log 2 ((num : ℚ) / den) < (num.log2 : Int) - den.log2 + 1 := by
    rw [← Int.lt_zpow_iff_log_lt (by decide) hratio]
    exact_mod_cast hhi
  have hscaled := scaled_ratio num den (-((num.log2 : Int) - den.log2))
  have hpos := scaled_pos num hden (-((num.log2 : Int) - den.log2))
  -- The estimate is right iff the ratio scaled by it is at least one.
  have htest : (scaled num den (-((num.log2 : Int) - den.log2))).2 ≤
      (scaled num den (-((num.log2 : Int) - den.log2))).1 ↔
      (num.log2 : Int) - den.log2 ≤ Int.log 2 ((num : ℚ) / den) := by
    rw [← Int.zpow_le_iff_le_log (by decide) hratio, ← Nat.cast_le (α := ℚ),
      ← one_le_div (Nat.cast_pos.mpr hpos), hscaled, zpow_neg, ← div_eq_mul_inv,
      one_le_div (by positivity)]
    norm_cast
  unfold floorLog2
  simp only
  split
  next h =>
    have := htest.mp h
    omega
  next h =>
    have : ¬ (num.log2 : Int) - den.log2 ≤ Int.log 2 ((num : ℚ) / den) :=
      fun hle => h (htest.mpr hle)
    omega

/-! ## 2. Rounding -/

/-- Rounding depends on the rational number only. -/
theorem roundHalfEven_congr {num den num' den' : Nat} (hden : 0 < den) (hden' : 0 < den')
    (h : (num : ℚ) / den = num' / den') : roundHalfEven num den = roundHalfEven num' den' := by
  have hscale : ∀ (n d : Nat) {k : Nat}, 0 < k →
      roundHalfEven (n * k) (d * k) = roundHalfEven n d := by
    intro n d k hk
    unfold roundHalfEven
    simp only
    rw [Nat.mul_div_mul_right n d hk, Nat.mul_mod_mul_right, ← Nat.mul_assoc]
    simp only [Nat.mul_lt_mul_right hk]
  -- Both ratios are brought to the product of the denominators.
  have hcross : num * den' = num' * den := by
    have hdenQ : (den : ℚ) ≠ 0 := Nat.cast_ne_zero.mpr (Nat.ne_of_gt hden)
    have hdenQ' : (den' : ℚ) ≠ 0 := Nat.cast_ne_zero.mpr (Nat.ne_of_gt hden')
    rw [div_eq_div_iff hdenQ hdenQ'] at h
    exact_mod_cast h
  rw [← hscale num den hden', ← hscale num' den' hden, hcross, Nat.mul_comm den den']

theorem roundHalfEven_exact {m den : Nat} (hden : 0 < den) : roundHalfEven (m * den) den = m := by
  unfold roundHalfEven
  simp only
  rw [Nat.mul_div_cancel m hden, Nat.mul_mod_left, Nat.mul_zero, if_pos hden]

/-- Rounding gives the quotient or its successor. -/
theorem roundHalfEven_bounds (num den : Nat) :
    num / den ≤ roundHalfEven num den ∧ roundHalfEven num den ≤ num / den + 1 := by
  unfold roundHalfEven
  simp only
  split
  · omega
  · split <;> omega

namespace Format

variable {f : Format} {num den num' den' : Nat}

/-- The exponent of the significand that a ratio is rounded to. -/
def target (f : Format) (num den : Nat) : Int :=
  max f.minExponent (floorLog2 num den - (f.precision - 1 : Nat))

theorem nearest_eq (f : Format) (hnum : 0 < num) :
    f.nearest num den = min f.infinity (f.word
      (roundHalfEven (scaled num den (-f.target num den)).1 (scaled num den (-f.target num den)).2)
      (f.target num den)) := by
  unfold nearest
  rw [if_neg (Nat.ne_of_gt hnum)]
  rfl

/-- Equal rational numbers have the same nearest word. -/
theorem nearest_congr (f : Format) (hden : 0 < den) (hden' : 0 < den')
    (h : (num : ℚ) / den = num' / den') : f.nearest num den = f.nearest num' den' := by
  rcases Nat.eq_zero_or_pos num with rfl | hnum
  · have hzero : num' = 0 := by
      have hdenQ' : (den' : ℚ) ≠ 0 := Nat.cast_ne_zero.mpr (Nat.ne_of_gt hden')
      rw [Nat.cast_zero, zero_div, eq_comm, div_eq_zero_iff] at h
      exact_mod_cast h.resolve_right hdenQ'
    rw [hzero]
    rfl
  · have hnum' : 0 < num' := by
      have hratio := ratio_pos hnum hden
      rw [h] at hratio
      rcases Nat.eq_zero_or_pos num' with rfl | hpos
      · simp at hratio
      · exact hpos
    have htarget : f.target num den = f.target num' den' := by
      rw [target, target, floorLog2_eq hnum hden, floorLog2_eq hnum' hden', h]
    rw [nearest_eq f hnum, nearest_eq f hnum', htarget]
    congr 2
    apply roundHalfEven_congr (scaled_pos num hden _) (scaled_pos num' hden' _)
    rw [scaled_ratio, scaled_ratio, h]

/-! ## 3. Numbers of the format -/

/-- The significand lies below the leading bit only where the exponent is the least one. -/
def Canonical (f : Format) (m : Nat) (q : Int) : Prop :=
  q = f.minExponent ∧ m < f.binade ∨ f.minExponent ≤ q ∧ f.binade ≤ m ∧ m < 2 * f.binade

/-- A word is that of its parts, which are canonical. -/
theorem parts_spec (f : Format) (word : Nat) :
    f.word (f.parts word).1 (f.parts word).2 = word ∧
      f.Canonical (f.parts word).1 (f.parts word).2 := by
  have hbinade : 0 < f.binade := Nat.pow_pos (by decide)
  rw [parts]
  split
  next h =>
    refine ⟨?_, Or.inl ⟨rfl, h⟩⟩
    simp [Format.word]
  next h =>
    obtain ⟨k, hk⟩ : ∃ k, word / f.binade = k + 1 := by
      have hpos := Nat.div_pos (Nat.not_lt.mp h) hbinade
      exact ⟨word / f.binade - 1, by omega⟩
    have hmod := Nat.mod_lt word hbinade
    refine ⟨?_, Or.inr ⟨?_, ?_, ?_⟩⟩
    · have hexponent : (f.minExponent + (word / f.binade : Nat) - 1 - f.minExponent).toNat = k := by
        omega
      have hsum : k * f.binade + (f.binade + word % f.binade) =
          (k + 1) * f.binade + word % f.binade := by ring
      rw [Format.word, hexponent, hsum, ← hk, Nat.div_add_mod']
    · simp only
      omega
    · exact Nat.le_add_right _ _
    · simp only
      omega

/-- Only the word of zero has the significand zero. -/
theorem parts_eq_zero_iff (f : Format) {word : Nat} : (f.parts word).1 = 0 ↔ word = 0 := by
  have hbinade : 0 < f.binade := Nat.pow_pos (by decide)
  constructor
  · intro hzero
    obtain ⟨hword, hcanonical⟩ := parts_spec f word
    rw [hzero] at hword hcanonical
    rcases hcanonical with ⟨hexponent, -⟩ | ⟨-, hle, -⟩
    · rw [← hword, hexponent]
      simp [Format.word]
    · omega
  · rintro rfl
    rw [parts, if_pos hbinade]

/-- Canonical parts are those of their word. -/
theorem parts_word (f : Format) {m : Nat} {q : Int} (h : f.Canonical m q) :
    f.parts (f.word m q) = (m, q) := by
  have hbinade : 0 < f.binade := Nat.pow_pos (by decide)
  rcases h with ⟨rfl, hlt⟩ | ⟨hq, hle, hlt⟩
  · have hword : f.word m f.minExponent = m := by simp [word]
    rw [hword, parts, if_pos hlt]
  · obtain ⟨k, rfl⟩ : ∃ k : Nat, q = f.minExponent + k := ⟨(q - f.minExponent).toNat, by omega⟩
    obtain ⟨low, rfl⟩ := Nat.exists_eq_add_of_le hle
    have hlow : low < f.binade := by omega
    have hword : f.word (f.binade + low) (f.minExponent + k) = (k + 1) * f.binade + low := by
      rw [word, add_sub_cancel_left, Int.toNat_natCast]
      ring
    have hdiv : ((k + 1) * f.binade + low) / f.binade = k + 1 := by
      rw [Nat.add_comm, Nat.add_mul_div_right _ _ hbinade, Nat.div_eq_of_lt hlow, Nat.zero_add]
    have hmod : ((k + 1) * f.binade + low) % f.binade = low := by
      rw [Nat.mul_add_mod', Nat.mod_eq_of_lt hlow]
    have hge : ¬ (k + 1) * f.binade + low < f.binade := by
      have hone : f.binade ≤ (k + 1) * f.binade := Nat.le_mul_of_pos_left _ (Nat.succ_pos k)
      omega
    have hexponent : f.minExponent + ((k + 1 : Nat) : Int) - 1 = f.minExponent + k := by omega
    rw [hword, parts, if_neg hge, hdiv, hmod, hexponent]

/-- The logarithm of a significand with an exponent. -/
theorem log_significand {m : Nat} (hm : 0 < m) (q : Int) :
    Int.log 2 ((m : ℚ) * 2 ^ q) = m.log2 + q := by
  have htwo : (2 : ℚ) ≠ 0 := by norm_num
  have hpos : (0 : ℚ) < m * 2 ^ q := mul_pos (Nat.cast_pos.mpr hm) (by positivity)
  have hlo : (m.log2 : Int) + q ≤ Int.log 2 ((m : ℚ) * 2 ^ q) := by
    rw [← Int.zpow_le_iff_le_log (by decide) hpos]
    rw [Nat.cast_ofNat, zpow_add₀ htwo]
    exact mul_le_mul_of_nonneg_right (zpow_log2_le hm) (by positivity)
  have hhi : Int.log 2 ((m : ℚ) * 2 ^ q) < (m.log2 : Int) + 1 + q := by
    rw [← Int.lt_zpow_iff_log_lt (by decide) hpos]
    rw [Nat.cast_ofNat, zpow_add₀ htwo]
    exact mul_lt_mul_of_pos_right (lt_zpow_log2 m) (by positivity)
  omega

/-- A number of the format is rounded to the exponent that it has already. -/
theorem target_of_canonical {m : Nat} {q : Int} (hcanonical : f.Canonical m q) (hm : 0 < m)
    (hnum : 0 < num) (hden : 0 < den) (h : (num : ℚ) / den = m * 2 ^ q) : f.target num den = q := by
  rw [target, floorLog2_eq hnum hden, h, log_significand hm]
  have hbinade : f.binade = 2 ^ (f.precision - 1) := rfl
  rcases hcanonical with ⟨hq, hlt⟩ | ⟨hq, hle, hlt⟩
  · have hlog : m.log2 < f.precision - 1 := (Nat.log2_lt (Nat.ne_of_gt hm)).mpr (hbinade ▸ hlt)
    omega
  · have hlogLo : f.precision - 1 ≤ m.log2 :=
      (Nat.le_log2 (Nat.ne_of_gt hm)).mpr (hbinade ▸ hle)
    have hlogHi : m.log2 < f.precision - 1 + 1 := by
      refine (Nat.log2_lt (Nat.ne_of_gt hm)).mpr ?_
      rw [Nat.pow_succ, Nat.mul_comm, ← hbinade]
      exact hlt
    omega

/-- Scaled by its exponent, a number is its significand. -/
theorem scaled_exact {m : Nat} {q : Int} (hden : 0 < den) (h : (num : ℚ) / den = m * 2 ^ q) :
    (scaled num den (-q)).1 = m * (scaled num den (-q)).2 := by
  have hratio := scaled_ratio num den (-q)
  have hpos : ((scaled num den (-q)).2 : ℚ) ≠ 0 :=
    Nat.cast_ne_zero.mpr (Nat.ne_of_gt (scaled_pos num hden (-q)))
  have htwo : (2 : ℚ) ≠ 0 := by norm_num
  rw [h, mul_assoc, ← zpow_add₀ htwo, add_neg_cancel, zpow_zero, mul_one,
    div_eq_iff hpos] at hratio
  exact_mod_cast hratio

/-- A number of the format is rounded to its own word. -/
theorem nearest_parts (f : Format) {word : Nat} (hword : word < f.infinity) (hden : 0 < den)
    (h : (num : ℚ) / den = (f.parts word).1 * 2 ^ (f.parts word).2) : f.nearest num den = word := by
  obtain ⟨hparts, hcanonical⟩ := parts_spec f word
  generalize (f.parts word).1 = m at h hparts hcanonical
  generalize (f.parts word).2 = q at h hparts hcanonical
  have hdenQ : (den : ℚ) ≠ 0 := Nat.cast_ne_zero.mpr (Nat.ne_of_gt hden)
  rcases Nat.eq_zero_or_pos m with rfl | hm
  · have hnum : num = 0 := by
      rw [Nat.cast_zero, zero_mul, div_eq_zero_iff] at h
      exact_mod_cast h.resolve_right hdenQ
    have hq : q = f.minExponent := by
      have hbinade : 0 < f.binade := Nat.pow_pos (by decide)
      rcases hcanonical with ⟨hq, -⟩ | ⟨-, hle, -⟩
      · exact hq
      · omega
    rw [← hparts, hq, hnum]
    simp [nearest, Format.word]
  · have hnum : 0 < num := by
      rcases Nat.eq_zero_or_pos num with rfl | hpos
      · have hvalue : (0 : ℚ) < m * 2 ^ q := mul_pos (Nat.cast_pos.mpr hm) (by positivity)
        rw [← h] at hvalue
        simp at hvalue
      · exact hpos
    rw [nearest_eq f hnum, target_of_canonical hcanonical hm hnum hden h, scaled_exact hden h,
      roundHalfEven_exact (scaled_pos num hden (-q)), hparts]
    exact Nat.min_eq_right (Nat.le_of_lt hword)

/-- A significand has at most as many bits as the format, or one more after rounding. -/
theorem significand_le (f : Format) (hnum : 0 < num) (hden : 0 < den) :
    roundHalfEven (scaled num den (-f.target num den)).1 (scaled num den (-f.target num den)).2 ≤
      2 * f.binade := by
  have htwo : (2 : ℚ) ≠ 0 := by norm_num
  have htarget : floorLog2 num den + 1 - f.target num den ≤ ((f.precision - 1 : Nat) : Int) + 1 := by
    rw [target]
    omega
  have hratio : (num : ℚ) / den < 2 ^ (floorLog2 num den + 1) := by
    rw [floorLog2_eq hnum hden]
    exact_mod_cast Int.lt_zpow_succ_log_self (b := 2) (by decide) ((num : ℚ) / den)
  generalize f.target num den = q at htarget
  have hpos := scaled_pos num hden (-q)
  have hscaled : ((scaled num den (-q)).1 : ℚ) / (scaled num den (-q)).2 < (2 * f.binade : Nat) := by
    rw [scaled_ratio]
    calc (num : ℚ) / den * 2 ^ (-q)
        < 2 ^ (floorLog2 num den + 1) * 2 ^ (-q) := by gcongr
      _ = 2 ^ (floorLog2 num den + 1 - q) := by rw [← zpow_add₀ htwo, sub_eq_add_neg]
      _ ≤ 2 ^ (((f.precision - 1 : Nat) : Int) + 1) := zpow_le_zpow_right₀ (by norm_num) htarget
      _ = (2 * f.binade : Nat) := by
        rw [zpow_add_one₀ htwo, zpow_natCast, binade, Nat.pow_eq, mul_comm]
        push_cast
        rfl
  rw [div_lt_iff₀ (Nat.cast_pos.mpr hpos)] at hscaled
  have hquotient := (Nat.div_lt_iff_lt_mul hpos).mpr (by exact_mod_cast hscaled)
  exact (roundHalfEven_bounds _ _).2.trans hquotient

/-! ## 4. Decimals -/

/-- What is far too large becomes infinity. -/
theorem nearest_double_of_large (hnum : 0 < num) (hden : 0 < den)
    (h : (2 : ℚ) ^ (1100 : Int) ≤ num / den) : double.nearest num den = double.infinity := by
  have hlog : 1100 ≤ floorLog2 num den := by
    rw [floorLog2_eq hnum hden, ← Int.zpow_le_iff_le_log (by decide) (ratio_pos hnum hden)]
    exact_mod_cast h
  have htarget : 1048 ≤ double.target num den := by
    simp only [target, double]
    omega
  rw [nearest_eq double hnum]
  refine Nat.min_eq_left ?_
  have hinfinity : double.infinity = 2047 * double.binade := by decide
  have hexponent : 2047 ≤ (double.target num den - double.minExponent).toNat := by
    simp only [double] at htarget ⊢
    omega
  rw [hinfinity, Format.word]
  exact Nat.le_add_right_of_le (Nat.mul_le_mul_right _ hexponent)

/-- What is far too small becomes zero. -/
theorem nearest_double_of_small (hnum : 0 < num) (hden : 0 < den)
    (h : (num : ℚ) / den < 2 ^ (-1100 : Int)) : double.nearest num den = 0 := by
  have hlog : floorLog2 num den < -1100 := by
    rw [floorLog2_eq hnum hden, ← Int.lt_zpow_iff_log_lt (by decide) (ratio_pos hnum hden)]
    exact_mod_cast h
  have htarget : double.target num den = -1074 := by
    simp only [target, double]
    omega
  have hpos := scaled_pos num hden 1074
  have hbelow : 2 * (scaled num den 1074).1 < (scaled num den 1074).2 := by
    have hposQ : (0 : ℚ) < (scaled num den 1074).2 := Nat.cast_pos.mpr hpos
    have htwo : (2 : ℚ) ≠ 0 := by norm_num
    have hratio : ((scaled num den 1074).1 : ℚ) / (scaled num den 1074).2 < 1 / 2 := by
      rw [scaled_ratio]
      calc (num : ℚ) / den * 2 ^ (1074 : Int)
          < 2 ^ (-1100 : Int) * 2 ^ (1074 : Int) := by gcongr
        _ = 2 ^ (-26 : Int) := by rw [← zpow_add₀ htwo]; norm_num
        _ ≤ 1 / 2 := by norm_num
    rw [div_lt_iff₀ hposQ] at hratio
    have hdouble : (2 : ℚ) * (scaled num den 1074).1 < (scaled num den 1074).2 := by linarith
    exact_mod_cast hdouble
  have hround : roundHalfEven (scaled num den 1074).1 (scaled num den 1074).2 = 0 := by
    have hlt : (scaled num den 1074).1 < (scaled num den 1074).2 := by omega
    unfold roundHalfEven
    simp only
    rw [Nat.mod_eq_of_lt hlt, if_pos hbelow, Nat.div_eq_of_lt hlt]
  rw [nearest_eq double hnum, htarget, neg_neg, hround]
  decide

/-- What is not too large stays finite. -/
theorem nearest_double_lt (hden : 0 < den) (h : (num : ℚ) / den < 2 ^ (1000 : Int)) :
    double.nearest num den < double.infinity := by
  have hinfinity : double.infinity = 2047 * 2 ^ 52 := rfl
  rcases Nat.eq_zero_or_pos num with rfl | hnum
  · rw [hinfinity]
    exact Nat.pos_of_ne_zero (by decide)
  · have hlog : floorLog2 num den < 1000 := by
      rw [floorLog2_eq hnum hden, ← Int.lt_zpow_iff_log_lt (by decide) (ratio_pos hnum hden)]
      exact_mod_cast h
    have htarget : double.target num den < 948 := by
      simp only [target, double]
      omega
    have hround := significand_le double hnum hden
    rw [nearest_eq double hnum]
    generalize double.target num den = q at htarget hround
    refine Nat.lt_of_le_of_lt (Nat.min_le_right _ _) ?_
    have hbinade : double.binade = 2 ^ 52 := rfl
    have hexponent : (q - double.minExponent).toNat ≤ 2021 := by
      simp only [double]
      omega
    rw [Format.word, hbinade, hinfinity]
    have hproduct := Nat.mul_le_mul_right (2 ^ 52) hexponent
    omega

/-- A positive natural number does not become zero. -/
theorem nearest_double_pos (hnum : 0 < num) : 0 < double.nearest num 1 := by
  have hone : (1 : ℚ) ≤ num := by exact_mod_cast hnum
  have hlog : 0 ≤ floorLog2 num 1 := by
    rw [floorLog2_eq hnum Nat.one_pos, Nat.cast_one, div_one,
      ← Int.zpow_le_iff_le_log (by decide) (zero_lt_one.trans_le hone), zpow_zero]
    exact hone
  have htarget : -52 ≤ double.target num 1 := by
    simp only [target, double]
    omega
  have hexponent : 1 ≤ (double.target num 1 - double.minExponent).toNat := by
    simp only [double] at htarget ⊢
    omega
  have hbinade : 0 < double.binade := Nat.pow_pos (by decide)
  rw [nearest_eq double hnum]
  refine Nat.lt_min.mpr ⟨by decide, ?_⟩
  rw [Format.word]
  exact Nat.add_pos_left (Nat.mul_pos hexponent hbinade) _

/-- A significand has its leading bit where the exponent is not the least one. -/
theorem binade_le_significand (f : Format) (hnum : 0 < num) (hden : 0 < den)
    (h : f.minExponent < f.target num den) :
    f.binade ≤ roundHalfEven (scaled num den (-f.target num den)).1
      (scaled num den (-f.target num den)).2 := by
  have htwo : (2 : ℚ) ≠ 0 := by norm_num
  have htarget : f.target num den = floorLog2 num den - (f.precision - 1 : Nat) := by
    rw [target] at h ⊢
    omega
  have hratio : (2 : ℚ) ^ floorLog2 num den ≤ num / den := by
    rw [floorLog2_eq hnum hden]
    exact_mod_cast Int.zpow_log_le_self (b := 2) (by decide) (ratio_pos hnum hden)
  rw [htarget]
  generalize floorLog2 num den = e at hratio
  have hpos := scaled_pos num hden (-(e - (f.precision - 1 : Nat)))
  have hscaled := scaled_ratio num den (-(e - (f.precision - 1 : Nat)))
  generalize (scaled num den (-(e - (f.precision - 1 : Nat)))).1 = n at hscaled
  generalize (scaled num den (-(e - (f.precision - 1 : Nat)))).2 = d at hscaled hpos
  have hsignificand : (f.binade : ℚ) ≤ n / d := by
    have hbinade : (f.binade : ℚ) = 2 ^ e * 2 ^ (-(e - (f.precision - 1 : Nat))) := by
      rw [← zpow_add₀ htwo, neg_sub, add_sub_cancel, zpow_natCast, binade]
      exact Nat.cast_pow 2 _
    rw [hscaled, hbinade]
    gcongr
  rw [le_div_iff₀ (Nat.cast_pos.mpr hpos)] at hsignificand
  have hquotient := (Nat.le_div_iff_mul_le hpos).mpr (by exact_mod_cast hsignificand)
  exact hquotient.trans (roundHalfEven_bounds n d).1

/-- From `2 ^ 53` on, a natural number does not become less than this. -/
theorem word_le_nearest_double (h : 2 ^ 53 ≤ num) :
    double.word double.binade 1 ≤ double.nearest num 1 := by
  have hnum : 0 < num := (by decide : 0 < 2 ^ 53).trans_le h
  have hlog : 53 ≤ floorLog2 num 1 := by
    rw [floorLog2_eq hnum Nat.one_pos,
      ← Int.zpow_le_iff_le_log (by decide) (ratio_pos hnum Nat.one_pos), Nat.cast_one, div_one]
    exact_mod_cast h
  have htarget : 1 ≤ double.target num 1 := by
    simp only [target, double]
    omega
  have hsignificand := binade_le_significand double hnum Nat.one_pos
    ((by decide : double.minExponent < 1).trans_le htarget)
  rw [nearest_eq double hnum]
  refine Nat.le_min.mpr ⟨by decide, ?_⟩
  rw [Format.word, Format.word]
  exact Nat.add_le_add (Nat.mul_le_mul_right _ (by omega)) hsignificand

theorem nearest_le (f : Format) (num den : Nat) : f.nearest num den ≤ f.infinity := by
  unfold nearest
  split
  · exact Nat.zero_le _
  · exact Nat.min_le_left _ _

end Format

namespace Decimal

/-- The rational number that a decimal stands for. -/
def value (d : Decimal) : ℚ := d.digits * 10 ^ d.exponent

theorem nearest_le (f : Format) (d : Decimal) : d.nearest f ≤ f.infinity := by
  unfold nearest
  split
  · exact Nat.zero_le _
  · split
    · exact Nat.le_refl _
    · split
      · exact Nat.zero_le _
      · exact f.nearest_le _ _

theorem value_eq_ratio (d : Decimal) :
    ((d.digits * Nat.pow 10 d.exponent.toNat : Nat) : ℚ) / (Nat.pow 10 (-d.exponent).toNat : Nat) =
      d.value := by
  obtain ⟨digits, exponent⟩ := d
  rw [value]
  cases exponent with
  | ofNat k => simp
  | negSucc k =>
    simp [zpow_negSucc, div_eq_mul_inv]

/-- Above its reach, a decimal lies beyond all doubles: a power of eight bounds its power of ten. -/
theorem le_value_of_reach {d : Decimal} (hdigits : 0 < d.digits) (h : reach < d.exponent) :
    (2 : ℚ) ^ (1100 : Int) ≤ d.value := by
  rw [reach] at h
  have height : (8 : ℚ) = 2 ^ (3 : Int) := by norm_num
  have hone : (1 : ℚ) ≤ d.digits := by exact_mod_cast hdigits
  calc (2 : ℚ) ^ (1100 : Int) ≤ 2 ^ (3 * d.exponent) :=
        zpow_le_zpow_right₀ (by norm_num) (by omega)
    _ = 8 ^ d.exponent := by rw [height, ← zpow_mul]
    _ ≤ 10 ^ d.exponent := zpow_le_zpow_left₀ (by omega) (by norm_num) (by norm_num)
    _ ≤ d.digits * 10 ^ d.exponent := le_mul_of_one_le_left (by positivity) hone

/-- Below its reach, a decimal lies under all doubles but zero. -/
theorem value_lt_of_reach {d : Decimal} (h : d.exponent + d.digits.log2 + 1 < -reach) :
    d.value < 2 ^ (-1100 : Int) := by
  rw [reach] at h
  have htwo : (2 : ℚ) ≠ 0 := by norm_num
  have height : (8 : ℚ) = 2 ^ (3 : Int) := by norm_num
  have hlog := lt_zpow_log2 d.digits
  have hinv : (10 : ℚ) ^ d.exponent ≤ 8 ^ d.exponent := by
    obtain ⟨k, hk⟩ : ∃ k : Nat, d.exponent = -(k : Int) := ⟨(-d.exponent).toNat, by omega⟩
    rw [hk, zpow_neg, zpow_neg, zpow_natCast, zpow_natCast]
    gcongr
    norm_num
  calc (d.digits : ℚ) * 10 ^ d.exponent
      ≤ d.digits * 8 ^ d.exponent := by gcongr
    _ < 2 ^ ((d.digits.log2 : Int) + 1) * 8 ^ d.exponent := by gcongr
    _ = 2 ^ ((d.digits.log2 : Int) + 1 + 3 * d.exponent) := by
      rw [height, ← zpow_mul, ← zpow_add₀ htwo]
    _ ≤ 2 ^ (-1100 : Int) := zpow_le_zpow_right₀ (by norm_num) (by omega)

/-- The nearest word of a decimal is that of its rational number, also where its exponent is far
outside of the format. -/
theorem nearest_decimal (d : Decimal) :
    d.nearest Format.double = Format.double.nearest (d.digits * Nat.pow 10 d.exponent.toNat)
      (Nat.pow 10 (-d.exponent).toNat) := by
  have hden : 0 < Nat.pow 10 (-d.exponent).toNat := Nat.pow_pos (by decide)
  have hratio := value_eq_ratio d
  unfold nearest
  split
  next hzero =>
    rw [hzero, Nat.zero_mul]
    rfl
  next hzero =>
    have hdigits : 0 < d.digits := Nat.pos_of_ne_zero hzero
    have hnum : 0 < d.digits * Nat.pow 10 d.exponent.toNat :=
      Nat.mul_pos hdigits (Nat.pow_pos (by decide))
    split
    next hlarge =>
      refine (Format.nearest_double_of_large hnum hden ?_).symm
      rw [hratio]
      exact le_value_of_reach hdigits hlarge
    next =>
      split
      next hsmall =>
        refine (Format.nearest_double_of_small hnum hden ?_).symm
        rw [hratio]
        exact value_lt_of_reach hsmall
      next => rfl

/-- Equal decimals have the same nearest word. -/
theorem nearest_value {d d' : Decimal} (h : d.value = d'.value) :
    d.nearest Format.double = d'.nearest Format.double := by
  have hden : 0 < Nat.pow 10 (-d.exponent).toNat := Nat.pow_pos (by decide)
  have hden' : 0 < Nat.pow 10 (-d'.exponent).toNat := Nat.pow_pos (by decide)
  rw [nearest_decimal, nearest_decimal]
  refine Format.nearest_congr _ hden hden' ?_
  rw [value_eq_ratio, value_eq_ratio, h]

end Decimal

end Templating.Number
