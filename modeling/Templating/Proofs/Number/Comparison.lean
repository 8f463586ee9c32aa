import Templating.Proofs.Number.Whole

/-!
# Comparing doubles

Two doubles compare equal if they are numbers and differ in no more than the sign of zero. So
comparison is equality of the doubles without this sign, except that what is not a number is not
equal to anything.

Results:
1. `unpack_inj`: a double is determined by its unpacked form. `eq_of_not_isFinite`: three doubles
   are not finite.
2. `beq_iff`: which doubles compare equal.
3. `isNaN_unsignZero`, `toInt?_unsignZero`: what does not depend on the sign of zero.
4. `isNaN_of_isFinite`, `isNaN_ofNat`: finite doubles are numbers, and so is the double of a natural
   number, however large it is.
-/

namespace Templating.Number

open Float.Model (UnpackedFloat)
open Float.Model.UnpackedFloat

/-! ## 1. Unpacked doubles -/

/-- The bits of a double come back from its unpacked form. There is only one double that is not a
number. -/
theorem pack_unpack_toBits (x : Float) :
    pack Float.Model.Format.binary64 x.toModel.unpack = x.toBits.toBitVec := by
  obtain ⟨⟨bits, hvalid⟩⟩ := x
  have hpack : pack Float.Model.Format.binary64
      (unpack Float.Model.Format.binary64 bits.toBitVec) = bits.toBitVec := by
    rw [pack_unpack]
    split
    next hnan =>
      obtain ⟨hexponent, hmantissa⟩ := of_decide_eq_true hnan
      exact (hvalid.eq_packedNaN hexponent hmantissa).symm
    next => rfl
  exact hpack

theorem unpack_inj {x y : Float} : x.toModel.unpack = y.toModel.unpack ↔ x = y := by
  constructor
  · intro h
    have hbits : x.toBits.toBitVec = y.toBits.toBitVec := by
      rw [← pack_unpack_toBits x, ← pack_unpack_toBits y, h]
    exact Float.toBits_inj.mp (UInt64.toBitVec_inj.mp hbits)
  · rintro rfl
    rfl

/-- There are two infinities and only one double that is not a number. -/
theorem eq_of_not_isFinite {x : Float} (h : ¬ x.isFinite = true) :
    x = Number.nan ∨ ∃ negative, x = infinity negative := by
  have hfinite : x.isFinite = x.toModel.unpack.isFinite := rfl
  rw [hfinite] at h
  cases hx : x.toModel.unpack with
  | notANumber => exact Or.inl (unpack_inj.mp hx)
  | infinity sign =>
    cases sign with
    | negative => exact Or.inr ⟨true, unpack_inj.mp hx⟩
    | positive => exact Or.inr ⟨false, unpack_inj.mp hx⟩
  | zero sign => exact absurd (hx ▸ rfl) h
  | finite sign m e hm => exact absurd (hx ▸ rfl) h

theorem unpack_eq_zero_iff {x : Float} {sign : Sign} :
    x.toModel.unpack = .zero sign ↔ x = ofWord (sign matches .negative) 0 := by
  rw [← unpack_inj]
  cases sign <;> exact Iff.rfl

/-- The two zeros are the doubles that are unpacked as zero. -/
theorem exists_unpack_eq_zero_iff {x : Float} :
    (∃ sign, x.toModel.unpack = .zero sign) ↔ ∃ negative, x = ofWord negative 0 := by
  constructor
  · rintro ⟨sign, h⟩
    exact ⟨_, unpack_eq_zero_iff.mp h⟩
  · rintro ⟨negative, rfl⟩
    cases negative with
    | true => exact ⟨.negative, unpack_eq_zero_iff.mpr rfl⟩
    | false => exact ⟨.positive, unpack_eq_zero_iff.mpr rfl⟩

/-! ## 2. Comparison -/

theorem unpacked_beq_infinity {s t : Sign} :
    UnpackedFloat.beq (.infinity s) (.infinity t) = true ↔ s = t := by
  cases s with
  | negative =>
    cases t with
    | negative => exact iff_of_true rfl rfl
    | positive => exact iff_of_false nofun nofun
  | positive =>
    cases t with
    | negative => exact iff_of_false nofun nofun
    | positive => exact iff_of_true rfl rfl

theorem unpacked_beq_finite {s t : Sign} {m n : Nat} {e f : Int} {hm : 0 < m} {hn : 0 < n} :
    UnpackedFloat.beq (.finite s m e hm) (.finite t n f hn) = true ↔ s = t ∧ m = n ∧ e = f := by
  cases s <;> cases t <;>
    simp [UnpackedFloat.beq, UnpackedFloat.compare, and_comm, Ordering.then_eq_eq]

/-- Two unpacked doubles compare equal if both are zero or if they are the same number. -/
theorem unpacked_beq_iff {u v : UnpackedFloat} :
    UnpackedFloat.beq u v = true ↔
      (∃ s t, u = .zero s ∧ v = .zero t) ∨ u.isNaN = false ∧ u = v := by
  cases u with
  | notANumber => cases v <;> simp [UnpackedFloat.beq, UnpackedFloat.compare, isNaN]
  | zero s =>
    cases v with
    | finite t | infinity t => cases t <;> simp [UnpackedFloat.beq, UnpackedFloat.compare]
    | zero | notANumber => simp [UnpackedFloat.beq, UnpackedFloat.compare]
  | infinity s =>
    cases v with
    | infinity t => simp [unpacked_beq_infinity, isNaN]
    | _ => cases s <;> simp [UnpackedFloat.beq, UnpackedFloat.compare]
  | finite s m e hm =>
    cases v with
    | finite t n f hn => simp [unpacked_beq_finite, isNaN]
    | infinity t => cases t <;> simp [UnpackedFloat.beq, UnpackedFloat.compare]
    | zero | notANumber => cases s <;> simp [UnpackedFloat.beq, UnpackedFloat.compare]

theorem unsignZero_cases (x : Float) :
    x = ofWord true 0 ∧ unsignZero x = ofWord false 0 ∨ unsignZero x = x := by
  by_cases hzero : x = ofWord true 0
  · exact Or.inl ⟨hzero, if_pos hzero⟩
  · exact Or.inr (if_neg hzero)

theorem unsignZero_zero (negative : Bool) : unsignZero (ofWord negative 0) = ofWord false 0 := by
  cases negative <;> rfl

theorem unsignZero_eq_iff {x y : Float} :
    unsignZero x = unsignZero y ↔
      ((∃ negative, x = ofWord negative 0) ∧ ∃ negative, y = ofWord negative 0) ∨ x = y := by
  constructor
  · intro h
    rcases unsignZero_cases x with ⟨hx, hxzero⟩ | hx
    · rcases unsignZero_cases y with ⟨hy, -⟩ | hy
      · exact Or.inl ⟨⟨true, hx⟩, ⟨true, hy⟩⟩
      · exact Or.inl ⟨⟨true, hx⟩, ⟨false, by rw [← hy, ← h, hxzero]⟩⟩
    · rcases unsignZero_cases y with ⟨hy, hyzero⟩ | hy
      · exact Or.inl ⟨⟨false, by rw [← hx, h, hyzero]⟩, ⟨true, hy⟩⟩
      · exact Or.inr (by rw [← hx, h, hy])
  · rintro (⟨⟨s, rfl⟩, ⟨t, rfl⟩⟩ | rfl)
    · rw [unsignZero_zero, unsignZero_zero]
    · rfl

/-- Two doubles compare equal if they are numbers and differ in no more than the sign of zero. -/
theorem beq_iff {x y : Float} :
    (x == y) = true ↔ x.isNaN = false ∧ unsignZero x = unsignZero y := by
  have hbeq : (x == y) = UnpackedFloat.beq x.toModel.unpack y.toModel.unpack := rfl
  have hnan : x.isNaN = x.toModel.unpack.isNaN := rfl
  rw [hbeq, unpacked_beq_iff, unpack_inj, hnan, unsignZero_eq_iff, ← exists_unpack_eq_zero_iff,
    ← exists_unpack_eq_zero_iff]
  constructor
  · rintro (⟨s, t, hx, hy⟩ | ⟨hnumber, hsame⟩)
    · rw [hx]
      exact ⟨rfl, Or.inl ⟨⟨s, rfl⟩, ⟨t, hy⟩⟩⟩
    · exact ⟨hnumber, Or.inr hsame⟩
  · rintro ⟨hnumber, ⟨⟨s, hx⟩, ⟨t, hy⟩⟩ | hsame⟩
    · exact Or.inl ⟨s, t, hx, hy⟩
    · exact Or.inr ⟨hnumber, hsame⟩

/-! ## 3. What does not depend on the sign of zero -/

theorem unsignZero_unsignZero (x : Float) : unsignZero (unsignZero x) = unsignZero x := by
  rcases unsignZero_cases x with ⟨-, h⟩ | h
  · rw [h, unsignZero_zero]
  · rw [h, h]

theorem isNaN_unsignZero (x : Float) : (unsignZero x).isNaN = x.isNaN := by
  rcases unsignZero_cases x with ⟨rfl, h⟩ | h
  · rw [h]
    rfl
  · rw [h]

theorem toInt?_unsignZero (x : Float) : toInt? (unsignZero x) = toInt? x := by
  rcases unsignZero_cases x with ⟨rfl, h⟩ | h
  · rw [h, toInt?_minusZero]
    decide +kernel
  · rw [h]

/-! ## 4. Doubles that are numbers -/

/-- Finite doubles are numbers. -/
theorem isNaN_of_isFinite {x : Float} (h : x.isFinite = true) : x.isNaN = false := by
  have hfinite : x.isFinite = x.toModel.unpack.isFinite := rfl
  have hnan : x.isNaN = x.toModel.unpack.isNaN := rfl
  rw [hfinite] at h
  rw [hnan]
  cases hx : x.toModel.unpack with
  | notANumber =>
    rw [hx] at h
    cases h
  | _ => rfl

/-- The double of a natural number is a number, however large it is. -/
theorem isNaN_ofNat (n : Nat) : (ofNat n).isNaN = false := by
  rw [ofNat, ofRatio]
  rcases Nat.lt_or_eq_of_le (Format.double.nearest_le n 1) with hlt | heq
  · exact isNaN_of_isFinite (isFinite_ofWord false hlt)
  · rw [heq]
    decide +kernel

end Templating.Number
