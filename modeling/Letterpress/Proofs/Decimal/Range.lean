/-
  Which integers are finite as doubles.

  * `Moderate size top u`: the unpacked number `u` is zero, or it has a mantissa of at most `size`
    bits and an exponent up to `top`.  Rounding and packing keep numbers moderate, with bounds that
    grow by little (`moderate_roundWithAccuracy`, `moderate_unpack_pack`), and what is moderate is
    finite.
  * `isFinite_ofInt`: so an integer of 64 bits is a finite double.  The bounds are rough, as there
    is much room between such integers and the largest double.
-/
import Mathlib.Algebra.Group.Int.Defs
import Mathlib.Algebra.Group.Nat.Defs
import Mathlib.Order.Basic
import Mathlib.Order.Nat

namespace Letterpress.Decimal

open Float.Model (Format UnpackedFloat)
open Float.Model.Format (binary64)
open Float.Model.UnpackedFloat hiding pack unpack mul neg ofNat ofInt round normalize

/-! ## Moderate numbers -/

/-- Zero, or a number with a mantissa of at most `size` bits and an exponent up to `top`. -/
inductive Moderate (size : Nat) (top : Int) : UnpackedFloat → Prop
  | zero (s : Sign) : Moderate size top (.zero s)
  | finite (s : Sign) {m : Nat} {e : Int} (hpos : 0 < m) (hm : m < 2 ^ size) (he : e ≤ top) :
      Moderate size top (.finite s m e hpos)

variable {size : Nat} {top : Int} {u : UnpackedFloat}

theorem Moderate.isFinite (h : Moderate size top u) : u.isFinite = true := by
  cases h <;> rfl

theorem Moderate.neg (h : Moderate size top u) : Moderate size top u.neg := by
  cases h with
  | zero s => exact .zero _
  | finite s hpos hm he => exact .finite _ hpos hm he

/-! ## Rounding -/

theorem mantissa_repeat_le (n : Nat) (em : ExtendedMantissa) :
    (n.repeat ExtendedMantissa.shiftRightOne em).mantissa ≤ em.mantissa := by
  induction n with
  | zero => exact Nat.le_refl _
  | succ n ih => exact (Nat.div_le_self _ _).trans ih

theorem roundToNearestEven_le (m : Nat) (acc : Accuracy) : acc.roundToNearestEven m ≤ m + 1 := by
  unfold Accuracy.roundToNearestEven
  split <;> omega

theorem shiftToTargetExponent_le {m : Nat} {e : Int} (acc : Accuracy) (hm : m < 2 ^ size)
    (he : e ≤ top) (hlow : -1074 ≤ top) :
    (shiftToTargetExponent binary64 m e acc).1.mantissa ≤ m ∧
      (shiftToTargetExponent binary64 m e acc).2 ≤ top + size := by
  unfold shiftToTargetExponent shiftToExponent
  constructor
  · refine (mantissa_repeat_le _ _).trans ?_
    unfold ExtendedMantissa.ofMantissaAndAccuracy
    split <;> exact Nat.le_refl _
  · have hlog : m.log2 ≤ size := by
      by_cases h0 : m = 0
      · subst h0
        simp
      · exact ((Nat.log2_lt h0).2 hm).le
    have hmin : binary64.minExponent = -1074 := rfl
    have hbits : binary64.mantissaBits = 53 := rfl
    simp only [Format.targetExponent, Float.Model.totalExponent, hmin, hbits]
    omega

theorem moderate_roundWithAccuracy {m : Nat} {e : Int} (sign : Sign) (acc : Accuracy)
    (hm : m < 2 ^ size) (he : e ≤ top) (hlow : -1074 ≤ top) :
    Moderate (size + 1) (top + (2 * size + 1)) (roundWithAccuracy binary64 sign m e acc) := by
  obtain ⟨hm₁, he₁⟩ := shiftToTargetExponent_le acc hm he hlow
  have hrounded : (shiftToTargetExponent binary64 m e acc).1.roundedMantissa ≤ m + 1 :=
    (roundToNearestEven_le _ _).trans (Nat.succ_le_succ hm₁)
  have hcarry : (shiftToTargetExponent binary64 m e acc).1.roundedMantissa < 2 ^ (size + 1) := by
    rw [Nat.pow_succ]
    omega
  obtain ⟨hm₂, he₂⟩ := shiftToTargetExponent_le .exact hcarry he₁ (by omega)
  unfold roundWithAccuracy
  dsimp only
  by_cases hzero : (shiftToTargetExponent binary64
      (shiftToTargetExponent binary64 m e acc).1.roundedMantissa
      (shiftToTargetExponent binary64 m e acc).2 .exact).1.mantissa = 0
  · rw [dif_pos hzero]
    exact .zero _
  · rw [dif_neg hzero]
    exact .finite _ _ (hm₂.trans_lt hcarry) (by omega)

theorem moderate_mul {u v : UnpackedFloat} {size' : Nat} {top' : Int} (hu : Moderate size top u)
    (hv : Moderate size' top' v) (hlow : -1074 ≤ top + top') :
    Moderate (size + size' + 1) (top + top' + (2 * (size + size' : Nat) + 1))
      (u.mul binary64 v) := by
  cases hu with
  | zero s =>
    cases hv with
    | zero s' => exact .zero _
    | finite s' hpos' hm' he' => exact .zero _
  | @finite s m e hpos hm he =>
    cases hv with
    | zero s' => exact .zero _
    | @finite s' m' e' hpos' hm' he' =>
      have hsize : m * m' < 2 ^ (size + size') := by
        rw [Nat.pow_add]
        exact Nat.mul_lt_mul'' hm hm'
      exact moderate_roundWithAccuracy _ .exact hsize (Int.add_le_add he he') hlow

/-! ## Packing -/

/-- The exponent that is stored decides, if it is not that of infinity. -/
theorem moderate_unpack {b : BitVec binary64.numBits} (hexponent : unpackExponent b ≠ -1#_)
    (htop : ((unpackExponent b).toNat : Int) ≤ top + 1075) (hlow : -1074 ≤ top) :
    Moderate 53 top (UnpackedFloat.unpack binary64 b) := by
  have hbias : (binary64.exponentBias : Int) + binary64.mantissaBitsWithoutImplicit = 1075 := rfl
  unfold UnpackedFloat.unpack
  dsimp only
  rw [if_neg hexponent]
  by_cases hlowest : unpackExponent b = 0#_
  · rw [if_pos hlowest]
    by_cases hzero : unpackMantissa b = 0#_
    · rw [dif_pos hzero]
      exact .zero _
    · have hlt : (unpackMantissa b).toNat < 2 ^ 52 := (unpackMantissa b).isLt
      rw [dif_neg hzero]
      refine .finite _ _ (by omega) ?_
      rw [hlowest, hbias, BitVec.toNat_ofNat]
      omega
  · rw [if_neg hlowest]
    refine .finite _ _ (1#1 ++ unpackMantissa b).isLt ?_
    rw [hbias]
    omega

theorem moderate_unpack_packComponents {sign : Sign} {exponent : BitVec binary64.exponentBits}
    {mantissa : BitVec binary64.mantissaBitsWithoutImplicit} (hexponent : exponent ≠ -1#_)
    (htop : (exponent.toNat : Int) ≤ top + 1075) (hlow : -1074 ≤ top) :
    Moderate 53 top
      (UnpackedFloat.unpack binary64 (packComponents binary64 sign exponent mantissa)) := by
  have hread : unpackExponent (packComponents binary64 sign exponent mantissa) = exponent :=
    unpackExponent_packComponents
  exact moderate_unpack (by rwa [hread]) (by rwa [hread]) hlow

/-- What is moderate is so after it has been packed, whatever its mantissa is. -/
theorem moderate_unpack_pack (h : Moderate size top u) (hlow : -1074 ≤ top) (htop : top < 971) :
    Moderate 53 top (Float.Model.pack u).unpack := by
  show Moderate 53 top (UnpackedFloat.unpack binary64 (UnpackedFloat.pack binary64 u))
  have hzero : ((0#11).toNat : Int) ≤ top + 1075 := by
    rw [BitVec.toNat_ofNat]
    omega
  cases h with
  | zero s => exact moderate_unpack_packComponents (by decide) hzero hlow
  | @finite s m e hpos hm he =>
    have hbias : (binary64.exponentBias : Int) = 1023 := rfl
    have hbits : (binary64.mantissaBitsWithoutImplicit : Int) = 52 := rfl
    have hbound : 2 ^ binary64.exponentBits = 2048 := rfl
    unfold UnpackedFloat.pack
    dsimp only
    rw [hbias, hbits, hbound]
    split
    · omega
    · rename_i hin
      split
      · have hmod : (BitVec.ofNat binary64.exponentBits (e + 1023 + 52).toNat).toNat =
            (e + 1023 + 52).toNat := by
          rw [BitVec.toNat_ofNat, hbound]
          exact Nat.mod_eq_of_lt (by omega)
        refine moderate_unpack_packComponents (fun heq => ?_) ?_ hlow
        · have hones : (e + 1023 + 52).toNat = 2047 := hmod.symm.trans (congrArg BitVec.toNat heq)
          omega
        · rw [hmod]
          omega
      · exact moderate_unpack_packComponents (by decide) hzero hlow

/-! ## Integers -/

/-- Rounding takes up room in the mantissa before it cuts bits off. -/
theorem moderate_round {m : Nat} {e : Int} (sign : Sign) (hm : m < 2 ^ size) (he : e ≤ top)
    (hlow : -1074 ≤ top) :
    Moderate (size + 52 + 1) (top + (2 * (size + 52 : Nat) + 1))
      (UnpackedFloat.round binary64 sign m e) := by
  unfold UnpackedFloat.round decreaseExponent
  dsimp only
  have hbits : binary64.mantissaBits = 53 := rfl
  have hshift : (e - binary64.targetExponent (Float.Model.totalExponent m e)).toNat ≤ 52 := by
    simp only [Format.targetExponent, Float.Model.totalExponent, hbits]
    omega
  refine moderate_roundWithAccuracy sign .exact ?_ (by omega) hlow
  rw [Nat.shiftLeft_eq, Nat.pow_add]
  calc
    m * 2 ^ _ ≤ m * 2 ^ 52 := Nat.mul_le_mul_left m (Nat.pow_le_pow_right (by decide) hshift)
    _ < 2 ^ size * 2 ^ 52 := Nat.mul_lt_mul_of_pos_right hm (by decide)

theorem moderate_ofNat {n : Nat} (hn : n < 2 ^ 65) :
    Moderate 118 235 (UnpackedFloat.ofNat binary64 n) := by
  unfold UnpackedFloat.ofNat UnpackedFloat.ofInt UnpackedFloat.normalize
  split
  · rename_i hlt
    have := Int.compare_eq_lt.1 hlt
    omega
  · exact .zero _
  · exact moderate_round .positive hn (Int.le_refl 0) (by decide)

theorem moderate_ofScientific {n : Nat} (hn : n < 2 ^ 65) :
    Moderate 120 396 (UnpackedFloat.ofScientific binary64 n 0) := by
  have hpower : (2 ^ binary64.exponentBits : Int) = 2048 := rfl
  have hshifted : n <<< binary64.mantissaBits < 2 ^ 118 := by
    rw [Nat.shiftLeft_eq]
    exact Nat.mul_lt_mul_of_pos_right hn (by decide)
  unfold UnpackedFloat.ofScientific
  by_cases hzero : n = 0
  · rw [dif_pos hzero]
    exact .zero _
  · have hsmall : ¬ ((0 : Int) > 2 ^ binary64.exponentBits) := by decide
    have hlarge : ¬ ((0 : Int) < -(2 ^ binary64.exponentBits + n.log2)) := by
      rw [hpower]
      omega
    rw [dif_neg hzero, if_neg hsmall, if_neg hlarge, if_pos (Int.le_refl 0)]
    have hbits : -(binary64.mantissaBits : Int) ≤ 157 := by decide
    have hten : 10 ^ (0 : Int).toNat < 2 ^ 1 := by decide
    exact moderate_mul (.finite _ _ hshifted hbits) (.finite _ _ hten (Int.le_refl 0)) (by decide)

/-- Small integers are converted by another way than large ones, with a factor of one. -/
theorem moderate_float_ofNat {n : Nat} (hn : n < 2 ^ 65) :
    Moderate 53 396 (Float.ofNat n).toModel.unpack := by
  change Moderate 53 396 (Float.ofScientific n false 0).toModel.unpack
  unfold Float.ofScientific
  split
  · have hword : Moderate 53 235 n.toUInt64.toFloat.toModel.unpack :=
      moderate_unpack_pack (moderate_ofNat (n.toUInt64.toNat_lt.trans (by decide))) (by decide)
        (by decide)
    have hone : Moderate 53 (-52) (Float.ofBits 0x3FF0000000000000).toModel.unpack := by
      exact .finite .positive (by decide : 0 < 2 ^ 52) (by decide) (Int.le_refl (-52))
    exact moderate_unpack_pack (moderate_mul hword hone (by decide)) (by decide) (by decide)
  · exact moderate_unpack_pack (moderate_ofScientific hn) (by decide) (by decide)

/-- **An integer of 64 bits is a finite double**, with or without a sign. -/
theorem isFinite_ofInt {n : Int} (hn : n.natAbs < 2 ^ 65) : (Float.ofInt n).isFinite = true := by
  cases n with
  | ofNat n => exact (moderate_float_ofNat hn).isFinite
  | negSucc n =>
    have hneg := (moderate_float_ofNat (n := n + 1) hn).neg
    exact (moderate_unpack_pack hneg (by decide) (by decide)).isFinite

end Letterpress.Decimal
