import Templating.Proofs.Number.Rounding

/-!
# The shortest decimal of a word

Whatever the rule for ties, the decimal that the search ends with reads back as its word.

Results:
1. `value_ofScaled`: the decimal that the search starts from is the number of the word.
2. `accept_search`: the search keeps what its start has.
3. `nearest_shortest`: the shortest decimal of a finite word is rounded to that word.
-/

namespace Templating.Number

namespace Decimal

/-! ## 1. The start of the search -/

theorem value_ofScaled (m : Nat) (q : Int) : (ofScaled m q).value = m * 2 ^ q := by
  cases q with
  | ofNat k => simp [ofScaled, value]
  | negSucc k =>
    have hten : (10 : ℚ) ^ (k + 1) = 5 ^ (k + 1) * 2 ^ (k + 1) := by
      rw [← mul_pow]
      norm_num
    have hfive : (5 : ℚ) ^ (k + 1) ≠ 0 := by positivity
    have hexponent : (-((k + 1 : Nat) : Int)) = Int.negSucc k := rfl
    simp only [ofScaled, value]
    rw [hexponent, zpow_negSucc, zpow_negSucc, hten, mul_inv, Nat.cast_mul]
    simp only [Nat.pow_eq, Nat.cast_pow, Nat.cast_ofNat]
    rw [mul_assoc, mul_inv_cancel_left₀ hfive]

/-- The decimal equal to the number of a finite word is rounded to that word. -/
theorem nearest_ofScaled {word : Nat} (hword : word < Format.double.infinity) :
    (ofScaled (Format.double.parts word).1 (Format.double.parts word).2).nearest Format.double =
      word := by
  have hvalue := value_ofScaled (Format.double.parts word).1 (Format.double.parts word).2
  generalize ofScaled (Format.double.parts word).1 (Format.double.parts word).2 = d at hvalue
  have hden : 0 < Nat.pow 10 (-d.exponent).toNat := Nat.pow_pos (by decide)
  rw [nearest_decimal]
  exact Format.nearest_parts Format.double hword hden ((value_eq_ratio d).trans hvalue)

/-! ## 2. Searching and trimming -/

/-- Whatever is found is accepted if the start is. -/
theorem accept_search (accept : Decimal → Bool) (tie : Tie) {d : Decimal} (h : accept d = true)
    (drop : Nat) : accept (search accept tie d drop) = true := by
  induction drop with
  | zero => exact h
  | succ drop ih =>
    rw [search]
    simp only
    split
    next hnear => exact hnear
    next =>
      split
      next hfar => exact hfar
      next => exact ih

theorem value_dropZeros (fuel : Nat) (d : Decimal) : (dropZeros fuel d).value = d.value := by
  induction fuel generalizing d with
  | zero => rfl
  | succ fuel ih =>
    rw [dropZeros]
    split
    next hzero =>
      have hten : (10 : ℚ) ≠ 0 := by norm_num
      have hdigits : d.digits = d.digits / 10 * 10 := by omega
      rw [ih, value, value, zpow_add_one₀ hten]
      conv_rhs => rw [hdigits]
      push_cast
      ring
    next => rfl

theorem value_trim (d : Decimal) : d.trim.value = d.value := by
  rw [trim]
  split
  next hzero => simp [value, hzero]
  next => exact value_dropZeros _ d

/-! ## 3. Reading back -/

/-- The shortest decimal of a finite word is rounded to that word. -/
theorem nearest_shortest (tie : Tie) {word : Nat} (hword : word < Format.double.infinity) :
    (shortest Format.double tie word).nearest Format.double = word := by
  rw [shortest]
  simp only
  rw [nearest_value (value_trim _)]
  refine beq_iff_eq.mp (accept_search (fun d => d.nearest Format.double == word) tie ?_ _)
  exact beq_iff_eq.mpr (nearest_ofScaled hword)

/-- The shortest decimal of a word that is not zero has a digit that is not zero. -/
theorem digits_shortest (tie : Tie) {word : Nat} (hword : word < Format.double.infinity)
    (hpos : 0 < word) : 0 < (shortest Format.double tie word).digits := by
  rcases Nat.eq_zero_or_pos (shortest Format.double tie word).digits with hzero | hdigits
  · have hnearest := nearest_shortest tie hword
    rw [nearest, if_pos hzero] at hnearest
    omega
  · exact hdigits

end Decimal

end Templating.Number
