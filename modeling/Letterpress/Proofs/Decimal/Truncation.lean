/-
  Doubles that are cut off to integers.

  * `unpack_cases`: a double is no number, infinite, or finite with a mantissa of 53 bits.
  * `toNat_toUInt64_lt`: **a number below 255 is cut off below 255**, and a negative one to zero.
-/
import Letterpress.Proofs.Decimal.Magnitude

namespace Letterpress.Decimal

open Float.Model (Format UnpackedFloat)
open Float.Model.Format (binary64)
open Float.Model.UnpackedFloat hiding pack unpack mul div neg ofNat ofInt round normalize

/-- A double is no number, infinite, or finite with a mantissa of 53 bits. -/
theorem unpack_cases (x : Float) : x.toModel.unpack = .notANumber ∨
    (∃ s, x.toModel.unpack = .infinity s) ∨ Moderate 53 972 x.toModel.unpack := by
  obtain ⟨b, hb⟩ : ∃ b, x.toModel.unpack = UnpackedFloat.unpack binary64 b := ⟨_, rfl⟩
  rw [hb]
  by_cases hexponent : unpackExponent b = -1#_
  · unfold UnpackedFloat.unpack
    dsimp only
    rw [if_pos hexponent]
    split
    · exact .inr (.inl ⟨_, rfl⟩)
    · exact .inl rfl
  · have hlt : (unpackExponent b).toNat < 2048 := (unpackExponent b).isLt
    exact .inr (.inr (moderate_unpack hexponent (by omega) (by decide)))

/-- Without the bits behind the point, a number is divided by a power of two. -/
theorem roundToInt_eq (s : Sign) (m : Nat) {e : Int} (he : e ≤ 0) :
    roundToInt s m e = s.apply (m / 2 ^ (-e).toNat : Nat) := by
  have hleft : (e - 0).toNat = 0 := by omega
  have hright : (0 - (e - (0 : Nat))).toNat = (-e).toNat := by omega
  unfold roundToInt decreaseExponent shiftToExponent
  dsimp only
  rw [hleft, hright, Nat.shiftLeft_zero, mantissa_shiftRight, mantissa_ofMantissaAndAccuracy]

/-- **A positive number below 255** is cut off below 255. -/
theorem roundToInt_lt {m : Nat} {e : Int} (hpos : 0 < m) (hm : m < 2 ^ 53)
    (h : ¬ (UnpackedFloat.finite .positive (255 * 2 ^ 45) (-45) (by decide)).le
      (.finite .positive m e hpos) = true) : (roundToInt .positive m e).toNat < 255 := by
  have hless : e < -45 ∨ e = -45 ∧ m < 255 * 2 ^ 45 := by
    change ¬ ((compare (-45) e).then (compare (255 * 2 ^ 45) m)).isLE = true at h
    rcases Int.lt_trichotomy e (-45) with he | rfl | he
    · exact .inl he
    · refine .inr ⟨rfl, Nat.lt_of_not_le fun hle => h ?_⟩
      exact Nat.isLE_compare.2 hle
    · rw [Int.compare_eq_lt.2 he] at h
      exact absurd rfl h
  have hvalue : m < 255 * 2 ^ (-e).toNat := by
    rcases hless with he | ⟨rfl, hm⟩
    · calc m < 255 * 2 ^ 46 := hm.trans (by decide)
        _ ≤ 255 * 2 ^ (-e).toNat :=
          Nat.mul_le_mul_left 255 (Nat.pow_le_pow_right (by decide) (by omega))
    · exact hm
  rw [roundToInt_eq .positive m (by omega)]
  exact (Nat.div_lt_iff_lt_mul (Nat.two_pow_pos _)).2 hvalue

variable {x : Float}

/-- **A number below 255 is cut off below 255**, and a negative one to zero. -/
theorem toNat_toUInt64_lt (hnan : x.isNaN = false) (h : ¬ 255.0 ≤ x) : x.toUInt64.toNat < 255 := by
  have hle : ¬ (UnpackedFloat.finite .positive (255 * 2 ^ 45) (-45) (by decide)).le
    x.toModel.unpack = true := fun hle => h (decide_eq_true_iff.2 hle)
  have hnumber : x.toModel.unpack.isNaN = false := hnan
  have hsmall : (x.toModel.unpack.toInt 0 (UInt64.size - 1)).toNat < 255 := by
    have hcases := unpack_cases x
    generalize x.toModel.unpack = u at hle hnumber hcases
    rcases hcases with rfl | ⟨s, rfl⟩ | hfinite
    · cases hnumber
    · cases s with
      | negative => exact (by decide : 0 < 255)
      | positive => exact absurd rfl hle
    · cases hfinite with
      | zero s => exact (by decide : 0 < 255)
      | finite s hpos hm _ =>
        cases s with
        | negative =>
          change (-(Nat.cast _ : Int)).toNat < 255
          omega
        | positive => exact roundToInt_lt hpos hm hle
  have htruncated : x.toUInt64 =
    UInt64.ofNatClamp (x.toModel.unpack.toInt 0 (UInt64.size - 1)).toNat := rfl
  rw [htruncated, UInt64.ofNatClamp, dif_pos (hsmall.trans (by decide)), UInt64.toNat_ofNatLT]
  exact hsmall

end Letterpress.Decimal
