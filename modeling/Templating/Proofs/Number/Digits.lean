import Mathlib.Algebra.Order.Field.Power
import Mathlib.Data.List.Basic
import Templating.Number.Layout

/-!
# Digits of printed numbers

A printed number is a run of digits, a point and a run of digits, or one of these before an
exponent. Reading the digits again gives the decimal that was printed.

Results:
1. `spanDigits_append`, `digitsValue_append`: runs of digits are read as a whole.
2. `digitsValue_repr`, `isWhole_repr`: the digits of a natural number.
3. `positional_whole`, `positional_point`, `scientific_parts`: the parts of a printed decimal.
-/

namespace Templating.Number

/-! ## 1. Runs of digits -/

def AllDigits (cs : List Char) : Prop := ∀ c ∈ cs, c.isDigit = true

/-- A run of digits ends before these characters. -/
def EndsDigits (cs : List Char) : Prop := ∀ c ∈ cs.head?, c.isDigit = false

/-- The digits of a whole number, of which only zero begins with zero. -/
structure IsWhole (ds : List Char) : Prop where
  digits : AllDigits ds
  nonempty : ds ≠ []
  leading : ds.head? = some '0' → ds.length = 1

namespace Literal

theorem digitsValue_eq (start : Nat) (cs : List Char) :
    digitsValue start cs = Nat.ofDigitChars 10 cs start :=
  Nat.ofDigitChars_eq_foldl.symm

theorem digitsValue_append (start : Nat) (xs ys : List Char) :
    digitsValue start (xs ++ ys) = digitsValue (digitsValue start xs) ys :=
  List.foldl_append

theorem digitsValue_zeros (start n : Nat) :
    digitsValue start (List.replicate n '0') = start * 10 ^ n := by
  rw [digitsValue_eq, Nat.ofDigitChars_replicate_zero, Nat.mul_comm]

theorem le_digitsValue (start : Nat) (cs : List Char) : start ≤ digitsValue start cs := by
  induction cs generalizing start with
  | nil => exact Nat.le_refl _
  | cons c cs ih =>
    have hnext := ih (10 * start + (c.toNat - '0'.toNat))
    rw [digitsValue] at hnext ⊢
    rw [List.foldl_cons]
    omega

/-- Going on with digits moves what was there before by as many places. -/
theorem mul_pow_le_digitsValue (start : Nat) (cs : List Char) :
    start * 10 ^ cs.length ≤ digitsValue start cs := by
  induction cs generalizing start with
  | nil => exact Nat.le_of_eq (Nat.mul_one _)
  | cons c cs ih =>
    calc start * 10 ^ (cs.length + 1) = 10 * start * 10 ^ cs.length := by
          rw [Nat.pow_succ', ← Nat.mul_assoc, Nat.mul_comm start]
      _ ≤ (10 * start + (c.toNat - '0'.toNat)) * 10 ^ cs.length :=
        Nat.mul_le_mul_right _ (Nat.le_add_right _ _)
      _ ≤ digitsValue start (c :: cs) := ih _

theorem spanDigits_append {ds rest : List Char} (hds : AllDigits ds) (hrest : EndsDigits rest) :
    spanDigits (ds ++ rest) = (ds, rest) := by
  have htake : rest.takeWhile Char.isDigit = [] := by
    cases rest with
    | nil => rfl
    | cons c cs => exact List.takeWhile_cons_of_neg (by simp [hrest c rfl])
  have hdrop : rest.dropWhile Char.isDigit = rest := by
    cases rest with
    | nil => rfl
    | cons c cs => exact List.dropWhile_cons_of_neg (by simp [hrest c rfl])
  rw [spanDigits, List.takeWhile_append_of_pos hds, List.dropWhile_append_of_pos hds, htake, hdrop,
    List.append_nil]

/-- A sign is split off from a text that begins with a digit. -/
theorem spanSign_signed (negative : Bool) {c : Char} (hc : c.isDigit = true) (rest : List Char) :
    spanSign ((if negative then ['-'] else []) ++ c :: rest) = (negative, c :: rest) := by
  cases negative with
  | true => rfl
  | false =>
    have hminus : c ≠ '-' := by
      rintro rfl
      cases hc
    have hplus : c ≠ '+' := by
      rintro rfl
      cases hc
    simp [spanSign, hminus, hplus]

end Literal

open Literal

theorem endsDigits_cons {c : Char} (h : c.isDigit = false) (cs : List Char) :
    EndsDigits (c :: cs) := by
  rintro d ⟨⟩
  exact h

theorem allDigits_append {xs ys : List Char} (hxs : AllDigits xs) (hys : AllDigits ys) :
    AllDigits (xs ++ ys) := by
  intro c hc
  rcases List.mem_append.mp hc with hc | hc
  · exact hxs c hc
  · exact hys c hc

theorem allDigits_zeros (n : Nat) : AllDigits (List.replicate n '0') := by
  intro c hc
  rw [List.eq_of_mem_replicate hc]
  rfl

/-! ## 2. The digits of a natural number -/

theorem allDigits_repr (n : Nat) : AllDigits (Nat.repr n).toList := by
  intro c hc
  rw [Nat.toList_repr] at hc
  exact Nat.isDigit_of_mem_toDigits (by decide) (by decide) hc

theorem repr_ne_nil (n : Nat) : (Nat.repr n).toList ≠ [] := by
  rw [Nat.toList_repr]
  exact Nat.toDigits_ne_nil

theorem length_repr (n : Nat) : (Nat.repr n).toList.length = Decimal.digitCount n := by
  rw [Nat.toList_repr, Decimal.digitCount]

theorem lt_pow_digitCount (n : Nat) : n < 10 ^ Decimal.digitCount n :=
  (Nat.length_toDigits_le_iff (by decide) Nat.length_toDigits_pos).mp (Nat.le_refl _)

theorem digitsValue_repr (n : Nat) : digitsValue 0 (Nat.repr n).toList = n := by
  rw [digitsValue_eq, Nat.toList_repr, Nat.ofDigitChars_ten_toDigits]

/-- Only zero begins with zero. -/
theorem head_repr {n : Nat} (hn : 0 < n) : (Nat.repr n).toList.head? ≠ some '0' := by
  rw [Nat.toList_repr]
  induction n using Nat.strongRecOn with
  | ind n ih =>
    rw [Nat.toDigits_eq_if (by decide)]
    split
    next hlt =>
      intro hzero
      have := Nat.digitChar_eq_zero.mp (Option.some.inj hzero)
      omega
    next hge =>
      rw [List.head?_append_of_ne_nil _ Nat.toDigits_ne_nil]
      exact ih (n / 10) (by omega) (by omega)

theorem isWhole_of_head {ds : List Char} (hdigits : AllDigits ds) (hnonempty : ds ≠ [])
    (hhead : ds.head? ≠ some '0') : IsWhole ds :=
  ⟨hdigits, hnonempty, fun h => absurd h hhead⟩

theorem isWhole_repr (n : Nat) : IsWhole (Nat.repr n).toList := by
  rcases Nat.eq_zero_or_pos n with rfl | hn
  · exact ⟨allDigits_repr 0, repr_ne_nil 0, fun _ => rfl⟩
  · exact isWhole_of_head (allDigits_repr n) (repr_ne_nil n) (head_repr hn)

/-! ## 3. The parts of a printed decimal -/

namespace Layout

variable {d : Decimal}

theorem positional_whole (layout : Layout) (hdigits : 0 < d.digits) (hexponent : 0 ≤ d.exponent) :
    ∃ whole, (layout.positional d).toList = whole ++ layout.wholeEnd.toList ∧ IsWhole whole ∧
      digitsValue 0 whole = d.digits * 10 ^ d.exponent.toNat := by
  refine ⟨(Nat.repr d.digits).toList ++ List.replicate d.exponent.toNat '0', ?_, ?_, ?_⟩
  · rw [positional]
    simp only
    rw [if_pos hexponent, String.toList_append, String.toList_ofList]
  · refine isWhole_of_head (allDigits_append (allDigits_repr _) (allDigits_zeros _)) ?_ ?_
    · exact List.append_ne_nil_of_left_ne_nil (repr_ne_nil _) _
    · rw [List.head?_append_of_ne_nil _ (repr_ne_nil _)]
      exact head_repr hdigits
  · rw [digitsValue_append, digitsValue_repr, digitsValue_zeros]

theorem positional_point (layout : Layout) (hdigits : 0 < d.digits) (hexponent : d.exponent < 0) :
    ∃ whole fraction, (layout.positional d).toList = whole ++ '.' :: fraction ∧ IsWhole whole ∧
      AllDigits fraction ∧ fraction ≠ [] ∧
      (⟨digitsValue (digitsValue 0 whole) fraction, -(fraction.length : Int)⟩ : Decimal) = d := by
  obtain ⟨digits, exponent⟩ := d
  obtain ⟨places, rfl⟩ : ∃ places : Nat, exponent = -(places + 1 : Nat) :=
    ⟨(-exponent).toNat - 1, by simp only at hexponent; omega⟩
  have hplaces : (-(-((places + 1 : Nat) : Int))).toNat = places + 1 := by omega
  have htext := allDigits_repr digits
  have hlength := List.length_pos_iff.mpr (repr_ne_nil digits)
  have hhead := head_repr hdigits
  rw [positional]
  simp only
  rw [if_neg (Int.not_le.mpr hexponent), hplaces]
  -- The point falls inside the digits, or zeros fill the places up to it.
  split
  next hlt =>
    generalize hsplit : (Nat.repr digits).toList.length - (places + 1) = split
    refine ⟨(Nat.repr digits).toList.take split, (Nat.repr digits).toList.drop split, ?_,
      isWhole_of_head ?_ ?_ ?_, ?_, ?_, ?_⟩
    · simp [String.toList_append]
    · exact fun c hc => htext c (List.mem_of_mem_take hc)
    · exact List.ne_nil_of_length_pos (by rw [List.length_take]; omega)
    · rw [List.head?_take, if_neg (by omega)]
      exact hhead
    · exact fun c hc => htext c (List.mem_of_mem_drop hc)
    · exact List.ne_nil_of_length_pos (by rw [List.length_drop]; omega)
    · rw [← digitsValue_append, List.take_append_drop, digitsValue_repr, List.length_drop]
      congr 2
      omega
  next hge =>
    generalize hzeros : places + 1 - (Nat.repr digits).toList.length = zeros
    refine ⟨['0'], List.replicate zeros '0' ++ (Nat.repr digits).toList, ?_, ?_, ?_, ?_, ?_⟩
    · simp [String.toList_append]
    · exact isWhole_repr 0
    · exact allDigits_append (allDigits_zeros _) htext
    · exact List.append_ne_nil_of_right_ne_nil _ (repr_ne_nil _)
    · have hzero : digitsValue 0 ['0'] = 0 := rfl
      rw [digitsValue_append, hzero, digitsValue_zeros, Nat.zero_mul, digitsValue_repr,
        List.length_append, List.length_replicate]
      congr 2
      omega

theorem scientific_parts (hdigits : 0 < d.digits) (power : Int)
    (hpower : power = d.exponent + Decimal.digitCount d.digits - 1) :
    ∃ whole fraction, (scientific d power).toList =
        whole ++ (if fraction = [] then [] else '.' :: fraction) ++
          'e' :: (if power < 0 then '-' else '+') :: (Nat.repr power.natAbs).toList ∧
      IsWhole whole ∧ AllDigits fraction ∧ fraction.length + 1 = Decimal.digitCount d.digits ∧
      (⟨digitsValue (digitsValue 0 whole) fraction, power - fraction.length⟩ : Decimal) = d := by
  have htext := allDigits_repr d.digits
  have hlength := List.length_pos_iff.mpr (repr_ne_nil d.digits)
  refine ⟨(Nat.repr d.digits).toList.take 1, (Nat.repr d.digits).toList.drop 1, ?_,
    isWhole_of_head ?_ ?_ ?_, ?_, ?_, ?_⟩
  · rw [scientific]
    simp only [String.toList_append, String.toList_ofList]
    have hempty : String.ofList ((Nat.repr d.digits).toList.drop 1) = "" ↔
        (Nat.repr d.digits).toList.drop 1 = [] := by
      rw [← String.toList_inj, String.toList_ofList]
      rfl
    simp only [hempty]
    split <;> split <;> simp
  · exact fun c hc => htext c (List.mem_of_mem_take hc)
  · exact List.ne_nil_of_length_pos (by rw [List.length_take]; omega)
  · rw [List.head?_take, if_neg (by decide)]
    exact head_repr hdigits
  · exact fun c hc => htext c (List.mem_of_mem_drop hc)
  · rw [List.length_drop, Nat.sub_add_cancel hlength, length_repr]
  · rw [← digitsValue_append, List.take_append_drop, digitsValue_repr, List.length_drop]
    rw [length_repr] at hlength ⊢
    obtain ⟨digits, exponent⟩ := d
    congr 1
    simp only at hpower hlength ⊢
    omega

end Layout

end Templating.Number
