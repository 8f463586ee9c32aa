import Mathlib
import Templating.Number.Binary

/-!
# The bits of a double

A double is determined by its sign and its magnitude word.

Results:
1. `ofWord_magnitude`: a double is the one with its own sign and magnitude word.
2. `isFinite_iff`: a double is finite iff its magnitude word lies below the word of infinity;
   `ofFloat_of_isFinite` and `ofFloat_of_not_isFinite` are its parts.
3. `toBits_ofWord`: a word below that of infinity is the magnitude word of a finite double.
-/

namespace Templating.Number

open Float.Model.UnpackedFloat

/-! ## 1. Sign and magnitude -/

/-- The word of a double without its sign. -/
def magnitude (x : Float) : Nat := x.toBits.toNat % signBit

def isNegative (x : Float) : Bool := decide (signBit ≤ x.toBits.toNat)

theorem ofWord_magnitude (x : Float) : ofWord (isNegative x) (magnitude x) = x := by
  have hlt : x.toBits.toNat < 2 ^ 64 := x.toBits.toNat_lt
  have hword : magnitude x + (if isNegative x then signBit else 0) = x.toBits.toNat := by
    rw [magnitude, isNegative, signBit]
    split
    next h =>
      have hle := of_decide_eq_true h
      omega
    next h =>
      have hgt := of_decide_eq_false (Bool.not_eq_true _ ▸ h)
      omega
  rw [ofWord, hword, UInt64.ofNat_toNat, Float.ofBits_toBits]

/-! ## 2. Finite doubles -/

theorem toNat_unpackExponent (b : BitVec Float.Model.Format.binary64.numBits) :
    (unpackExponent b).toNat = b.toNat / 2 ^ 52 % 2 ^ 11 := by
  simp [unpackExponent, Nat.shiftRight_eq_div_pow]

theorem isFinite_unpack (b : BitVec Float.Model.Format.binary64.numBits) :
    (unpack Float.Model.Format.binary64 b).isFinite = true ↔ ¬ unpackExponent b = -1#11 := by
  rw [unpack]
  split
  next h => split <;> exact ⟨nofun, fun hne => absurd h hne⟩
  next h =>
    split
    · split <;> exact ⟨fun _ => h, fun _ => rfl⟩
    · exact ⟨fun _ => h, fun _ => rfl⟩

/-- The words of infinity and of what is not a number are those with the greatest exponent field. -/
theorem isFinite_iff {x : Float} :
    x.isFinite = true ↔ magnitude x < Format.double.infinity := by
  obtain ⟨⟨bits, hvalid⟩⟩ := x
  have hones : ∀ b : BitVec Float.Model.Format.binary64.numBits,
      unpackExponent b = -1#11 ↔ b.toNat / 2 ^ 52 % 2 ^ 11 = 2047 := by
    intro b
    rw [← toNat_unpackExponent]
    exact ⟨fun h => by rw [h]; decide, fun h => BitVec.eq_of_toNat_eq h⟩
  have hfloat : Float.isFinite ⟨⟨bits, hvalid⟩⟩ =
      (unpack Float.Model.Format.binary64 bits.toBitVec).isFinite := rfl
  have hmagnitude : magnitude ⟨⟨bits, hvalid⟩⟩ = bits.toBitVec.toNat % 2 ^ 63 := rfl
  have hinfinity : Format.double.infinity = 2047 * 2 ^ 52 := rfl
  rw [hfloat, isFinite_unpack, hones, hmagnitude, hinfinity]
  omega

/-- A word below that of infinity stays as it is, with its sign. -/
theorem toBits_ofWord (negative : Bool) {word : Nat} (h : word < Format.double.infinity) :
    (ofWord negative word).toBits.toNat = word + if negative then signBit else 0 := by
  have hinfinity : Format.double.infinity = 2047 * 2 ^ 52 := rfl
  rw [hinfinity] at h
  generalize hbits : UInt64.ofNat (word + if negative then signBit else 0) = bits
  have hword : bits.toBitVec.toNat = word + if negative then signBit else 0 := by
    rw [← hbits, UInt64.toNat_toBitVec, UInt64.toNat_ofNat']
    refine Nat.mod_eq_of_lt ?_
    split
    · rw [signBit]
      omega
    · omega
  have hexponent : ¬ @unpackExponent Float.Model.Format.binary64 bits.toBitVec = -1#11 := by
    intro hones
    have hfield := toNat_unpackExponent bits.toBitVec
    rw [hones, hword] at hfield
    have hones : (-1#11).toNat = 2047 := by decide
    rw [hones] at hfield
    split at hfield
    · rw [signBit] at hfield
      omega
    · omega
  -- The bits are normalised on the way, which only concerns what is not a number.
  have hpack : (ofWord negative word).toBits.toNat =
      (pack Float.Model.Format.binary64
        (unpack Float.Model.Format.binary64 bits.toBitVec)).toNat := by
    rw [← hbits]
    rfl
  have hnumber : ¬ @isNaNBits Float.Model.Format.binary64 bits.toBitVec = true := by
    rw [isNaNBits, decide_eq_true_eq]
    exact fun hnan => hexponent hnan.1
  rw [hpack, pack_unpack, if_neg hnumber, hword]

theorem magnitude_ofWord (negative : Bool) {word : Nat} (h : word < Format.double.infinity) :
    magnitude (ofWord negative word) = word := by
  have hinfinity : Format.double.infinity = 2047 * 2 ^ 52 := rfl
  rw [magnitude, toBits_ofWord negative h, signBit]
  split <;> omega

theorem isNegative_ofWord (negative : Bool) {word : Nat} (h : word < Format.double.infinity) :
    isNegative (ofWord negative word) = negative := by
  have hinfinity : Format.double.infinity = 2047 * 2 ^ 52 := rfl
  rw [isNegative, toBits_ofWord negative h, signBit]
  cases negative with
  | true => exact decide_eq_true (Nat.le_add_left _ _)
  | false => exact decide_eq_false (by rw [if_neg Bool.false_ne_true]; omega)

/-- A word below that of infinity gives a finite double, whatever its sign. -/
theorem isFinite_ofWord (negative : Bool) {word : Nat} (h : word < Format.double.infinity) :
    (ofWord negative word).isFinite = true := by
  rw [isFinite_iff, magnitude_ofWord negative h]
  exact h

theorem ofFloat_eq (x : Float) :
    Parts.ofFloat x =
      if magnitude x < Format.double.infinity then
        .finite (isNegative x) (Format.double.parts (magnitude x)).1
          (Format.double.parts (magnitude x)).2
      else if magnitude x = Format.double.infinity then .infinite (isNegative x)
      else .nan := rfl

theorem ofFloat_of_isFinite {x : Float} (h : x.isFinite = true) :
    Parts.ofFloat x = .finite (isNegative x) (Format.double.parts (magnitude x)).1
      (Format.double.parts (magnitude x)).2 := by
  rw [ofFloat_eq, if_pos (isFinite_iff.mp h)]

theorem ofFloat_of_not_isFinite {x : Float} (h : ¬ x.isFinite = true) :
    Parts.ofFloat x = .nan ∨ ∃ negative, Parts.ofFloat x = .infinite negative := by
  rw [ofFloat_eq, if_neg (fun hlt => h (isFinite_iff.mpr hlt))]
  split
  · exact Or.inr ⟨_, rfl⟩
  · exact Or.inl rfl

end Templating.Number
