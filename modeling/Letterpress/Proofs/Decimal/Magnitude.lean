/-
  How large a double is at least.

  * `AtLeast low u`: the unpacked number `u` is positive and not below `2 ^ low`, and has the form
    in which numbers are stored.
  * Rounding never falls below a power of two (`atLeast_roundWithAccuracy`), so that products
    (`atLeast_mul`) and quotients (`atLeast_div`) of such numbers have the bounds that exact
    arithmetic gives; `AtLeast.stored`: storing a number changes nothing.
  * `atLeast_ofNat`: a natural number but zero is at least one as a double.
-/
import Letterpress.Proofs.Decimal.Range
import Mathlib

namespace Letterpress.Decimal

open Float.Model (Format UnpackedFloat totalExponent)
open Float.Model.Format (binary64)
open Float.Model.UnpackedFloat hiding pack unpack mul div neg ofNat ofInt round normalize

/-- A positive number that is not below `2 ^ low`, in the form in which numbers are stored: with 53
    bits, or with fewer bits and the least exponent. -/
inductive AtLeast (low : Int) : UnpackedFloat → Prop
  | infinity : AtLeast low (.infinity .positive)
  | finite {m : Nat} {e : Int} (hpos : 0 < m) (hbits : m.log2 ≤ 52) (hleast : -1074 ≤ e)
      (hform : m.log2 = 52 ∨ e = -1074) (hlow : low ≤ m.log2 + e) :
      AtLeast low (.finite .positive m e hpos)

/-! ## Rounding -/

theorem mantissa_shiftRight (em : ExtendedMantissa) (n : Nat) :
    (em >>> n).mantissa = em.mantissa / 2 ^ n := by
  change (n.repeat ExtendedMantissa.shiftRightOne em).mantissa = _
  induction n with
  | zero => simp [Nat.repeat]
  | succ n ih =>
    rw [Nat.repeat, Nat.pow_succ, ← Nat.div_div_eq_div_mul, ← ih]
    rfl

theorem le_roundedMantissa (em : ExtendedMantissa) : em.mantissa ≤ em.roundedMantissa := by
  unfold ExtendedMantissa.roundedMantissa Accuracy.roundToNearestEven
  split <;> omega

/-- The exponent with which a number has 53 bits, if it is not too small. -/
theorem targetExponent_eq (m : Nat) (e : Int) :
    binary64.targetExponent (totalExponent m e) = max (m.log2 + e - 52) (-1074) := by
  have hmin : binary64.minExponent = -1074 := rfl
  have hbits : (binary64.mantissaBits : Int) = 53 := rfl
  rw [Format.targetExponent, totalExponent, hmin, hbits]
  congr 1
  omega

/-- The bits by which a number is shifted to the exponent with which it is stored. -/
def surplus (m : Nat) (e : Int) : Nat := (max (m.log2 + e - 52) (-1074) - e).toNat

theorem mantissa_ofMantissaAndAccuracy (m : Nat) (acc : Accuracy) :
    (ExtendedMantissa.ofMantissaAndAccuracy m acc).mantissa = m := by
  unfold ExtendedMantissa.ofMantissaAndAccuracy
  split <;> rfl

theorem shiftToTargetExponent_eq (m : Nat) (e : Int) (acc : Accuracy) :
    (shiftToTargetExponent binary64 m e acc).1.mantissa = m / 2 ^ surplus m e ∧
      (shiftToTargetExponent binary64 m e acc).2 = e + surplus m e := by
  unfold shiftToTargetExponent shiftToExponent surplus
  dsimp only
  rw [targetExponent_eq, mantissa_shiftRight, mantissa_ofMantissaAndAccuracy]
  exact ⟨rfl, rfl⟩

/-- Without its last bits, a number has as many bits fewer. -/
theorem div_two_pow_bounds {m n : Nat} (hm : 0 < m) (hn : n ≤ m.log2) :
    2 ^ (m.log2 - n) ≤ m / 2 ^ n ∧ m / 2 ^ n < 2 ^ (m.log2 - n + 1) := by
  have hlow : 2 ^ m.log2 ≤ m := Nat.log2_self_le hm.ne'
  have hhigh : m < 2 ^ (m.log2 + 1) := (Nat.log2_lt hm.ne').1 (Nat.lt_succ_self _)
  constructor
  · rw [Nat.le_div_iff_mul_le (Nat.two_pow_pos n), ← Nat.pow_add]
    rwa [Nat.sub_add_cancel hn]
  · rw [Nat.div_lt_iff_lt_mul (Nat.two_pow_pos n), ← Nat.pow_add]
    rwa [show m.log2 - n + 1 + n = m.log2 + 1 by omega]

variable {low low' : Int} {u v : UnpackedFloat}

/-- **Rounding does not fall below a power of two.** -/
theorem atLeast_roundWithAccuracy {m : Nat} {e : Int} (acc : Accuracy) (hm : 0 < m)
    (he : e ≤ max (m.log2 + e - 52) (-1074)) (hlow : low ≤ m.log2 + e) (hleast : -1074 ≤ low) :
    AtLeast low (roundWithAccuracy binary64 .positive m e acc) := by
  obtain ⟨hm₁, he₁⟩ := shiftToTargetExponent_eq m e acc
  obtain ⟨hlow₁, hhigh₁⟩ := div_two_pow_bounds (n := surplus m e) hm (by unfold surplus; omega)
  have hrounded : (shiftToTargetExponent binary64 m e acc).1.roundedMantissa ≤
      m / 2 ^ surplus m e + 1 := by
    rw [← hm₁]
    exact roundToNearestEven_le _ _
  have hrounded' := le_roundedMantissa (shiftToTargetExponent binary64 m e acc).1
  rw [hm₁] at hrounded'
  -- the number of bits that are left, and the exponent that goes with it
  obtain ⟨k, hk⟩ : ∃ k, k = m.log2 - surplus m e := ⟨_, rfl⟩
  unfold roundWithAccuracy
  dsimp only
  rw [he₁]
  generalize (shiftToTargetExponent binary64 m e acc).1.roundedMantissa = r at *
  generalize ht : e + (surplus m e : Int) = t at *
  obtain ⟨hm₂, he₂⟩ := shiftToTargetExponent_eq r t .exact
  rw [← hk] at hlow₁ hhigh₁
  have hr : 2 ^ k ≤ r ∧ r ≤ 2 ^ (k + 1) := by omega
  have hrpos : 0 < r := (Nat.two_pow_pos k).trans_le hr.1
  have hkt : (k : Int) + t = m.log2 + e ∧ -1074 ≤ t ∧ k ≤ 52 ∧ (k = 52 ∨ t = -1074) := by
    unfold surplus at hk ht
    omega
  have hlog : k ≤ r.log2 := (Nat.le_log2 hrpos.ne').2 hr.1
  by_cases hbits : r.log2 ≤ 52
  · have hzero : surplus r t = 0 := by unfold surplus; omega
    rw [hzero, Nat.pow_zero, Nat.div_one] at hm₂
    rw [hzero] at he₂
    rw [dif_neg (by rw [hm₂]; exact hrpos.ne')]
    simp only [hm₂, he₂]
    exact .finite _ hbits (by omega) (by omega) (by omega)
  · -- the rounding has carried to the next power of two
    have hle : 2 ^ (k + 1) ≤ 2 ^ 53 := Nat.pow_le_pow_right (by decide) (by omega)
    have hge : 2 ^ 53 ≤ r := (Nat.le_log2 hrpos.ne').1 (by omega)
    obtain rfl : r = 2 ^ 53 := Nat.le_antisymm (hr.2.trans hle) hge
    have hone : surplus (2 ^ 53) t = 1 := by
      unfold surplus
      rw [Nat.log2_two_pow]
      omega
    have hhalf : 2 ^ 53 / 2 ^ 1 = 2 ^ 52 := by decide
    rw [hone, hhalf] at hm₂
    rw [hone] at he₂
    rw [dif_neg (by rw [hm₂]; decide)]
    simp only [hm₂, he₂]
    rw [Nat.log2_two_pow] at hlog
    refine .finite _ ?_ (by omega) ?_ ?_ <;> rw [Nat.log2_two_pow]
    · exact .inl rfl
    · omega

/-! ## Storing -/

/-- The leading bit, which is not stored, before the others. -/
theorem toNat_one_append (y : BitVec 52) : (1#1 ++ y).toNat = 2 ^ 52 + y.toNat := by
  rw [BitVec.toNat_append, ← Nat.shiftLeft_add_eq_or_of_lt y.isLt]
  rfl

section

variable (s : Sign) {x : BitVec binary64.exponentBits}
  {y : BitVec binary64.mantissaBitsWithoutImplicit} {m : Nat} {e : Int} (hpos : 0 < m)

/-- The parts of a stored number are those that it is put together from. -/
theorem unpack_components : unpackSign (packComponents binary64 s x y) = s.toBitVec ∧
    unpackExponent (packComponents binary64 s x y) = x ∧
    unpackMantissa (packComponents binary64 s x y) = y :=
  ⟨unpackSign_packComponents s x y, unpackExponent_packComponents, unpackMantissa_packComponents⟩

theorem unpack_normal (hx : x ≠ -1#_) (hx' : x ≠ 0#_) (hm : (1#1 ++ y).toNat = m)
    (he : (x.toNat : Int) - 1075 = e) :
    UnpackedFloat.unpack binary64 (packComponents binary64 s x y) = .finite s m e hpos := by
  subst hm he
  obtain ⟨hsign, hexponent, hmantissa⟩ := unpack_components s (x := x) (y := y)
  unfold UnpackedFloat.unpack
  dsimp only
  simp only [hsign, hexponent, hmantissa, if_neg hx, if_neg hx', Sign.ofBitVec_toBitVec]
  rfl

theorem unpack_subnormal (hm : y.toNat = m) :
    UnpackedFloat.unpack binary64 (packComponents binary64 s 0#_ y) =
      .finite s m (-1074) hpos := by
  subst hm
  obtain ⟨hsign, hexponent, hmantissa⟩ := unpack_components s (x := 0#_) (y := y)
  have hzero : (0#_ : BitVec binary64.exponentBits) ≠ -1#_ := by decide
  have hy : y ≠ 0#_ := by
    rintro rfl
    exact absurd hpos (by decide)
  unfold UnpackedFloat.unpack
  dsimp only
  simp only [hsign, hexponent, hmantissa, if_neg hzero, if_pos trivial, dif_neg hy,
    Sign.ofBitVec_toBitVec]
  rfl

theorem unpack_packedInfinity :
    UnpackedFloat.unpack binary64 (packedInfinity binary64 s) = .infinity s := by
  cases s <;> rfl

/-- Storing a number changes nothing, unless it is too large. -/
theorem unpack_pack_finite (hbits : m.log2 ≤ 52) (hleast : -1074 ≤ e)
    (hform : m.log2 = 52 ∨ e = -1074) :
    (Float.Model.pack (.finite s m e hpos)).unpack = .finite s m e hpos ∨
      (Float.Model.pack (.finite s m e hpos)).unpack = .infinity s := by
  change UnpackedFloat.unpack binary64 (UnpackedFloat.pack binary64 (.finite s m e hpos)) = _ ∨
    UnpackedFloat.unpack binary64 (UnpackedFloat.pack binary64 (.finite s m e hpos)) = _
  have hbias : (binary64.exponentBias : Int) = 1023 := rfl
  have hcount : (binary64.mantissaBitsWithoutImplicit : Int) = 52 := rfl
  have hbound : 2 ^ binary64.exponentBits = 2048 := rfl
  have hlow : 2 ^ m.log2 ≤ m := Nat.log2_self_le hpos.ne'
  have hhigh : m < 2 ^ (m.log2 + 1) := (Nat.log2_lt hpos.ne').1 (Nat.lt_succ_self _)
  unfold UnpackedFloat.pack
  dsimp only
  rw [hbias, hcount, hbound]
  split
  · exact .inr (unpack_packedInfinity s)
  · rename_i hin
    left
    split
    · rename_i hnormal
      have hnormal : m.log2 = 52 := Nat.succ.inj hnormal
      have hexponent : (BitVec.ofNat binary64.exponentBits (e + 1023 + 52).toNat).toNat =
          (e + 1023 + 52).toNat := by
        rw [BitVec.toNat_ofNat, hbound]
        exact Nat.mod_eq_of_lt (by omega)
      refine unpack_normal s hpos (fun h => ?_) (fun h => ?_) ?_ (by rw [hexponent]; omega)
      · have hones : (e + 1023 + 52).toNat = 2047 := hexponent.symm.trans (congrArg BitVec.toNat h)
        omega
      · have hzero : (e + 1023 + 52).toNat = 0 := hexponent.symm.trans (congrArg BitVec.toNat h)
        omega
      · rw [hnormal] at hlow hhigh
        have hrest : (BitVec.ofNat 52 m).toNat = m - 2 ^ 52 := by
          rw [BitVec.toNat_ofNat]
          omega
        exact (toNat_one_append _).trans (by omega)
    · rename_i hnormal
      have hnormal : m.log2 + 1 ≠ 53 := hnormal
      obtain rfl : e = -1074 := by omega
      have hpow : 2 ^ (m.log2 + 1) ≤ 2 ^ 52 := Nat.pow_le_pow_right (by decide) (by omega)
      refine unpack_subnormal s hpos ?_
      rw [BitVec.toNat_ofNat]
      exact Nat.mod_eq_of_lt (hhigh.trans_le hpow)

theorem stored_zero : (Float.Model.pack (.zero s)).unpack = .zero s := by
  cases s <;> rfl

theorem unpack_ne_notANumber (hx : x ≠ -1#_) :
    UnpackedFloat.unpack binary64 (packComponents binary64 s x y) ≠ .notANumber := by
  obtain ⟨-, hexponent, -⟩ := unpack_components s (x := x) (y := y)
  unfold UnpackedFloat.unpack
  dsimp only
  simp only [hexponent, if_neg hx]
  split
  · split <;> nofun
  · nofun

end

/-- What is a number is stored as one. -/
theorem stored_ne_notANumber (h : u ≠ .notANumber) :
    (Float.Model.pack u).unpack ≠ .notANumber := by
  change UnpackedFloat.unpack binary64 (UnpackedFloat.pack binary64 u) ≠ _
  cases u with
  | notANumber => exact absurd rfl h
  | infinity s => cases s <;> nofun
  | zero s => exact unpack_ne_notANumber s (by decide)
  | finite s m e hpos =>
    have hbound : 2 ^ binary64.exponentBits = 2048 := rfl
    unfold UnpackedFloat.pack
    dsimp only
    rw [hbound]
    split
    · rw [unpack_packedInfinity]
      nofun
    · split
      · refine unpack_ne_notANumber s fun hones => ?_
        have hvalue := congrArg BitVec.toNat hones
        rw [BitVec.toNat_ofNat, hbound] at hvalue
        have hones : (-1#_ : BitVec binary64.exponentBits).toNat = 2047 := rfl
        omega
      · exact unpack_ne_notANumber s (by decide)

/-- **Storing a number changes nothing** of the bound. -/
theorem AtLeast.stored (h : AtLeast low u) : AtLeast low (Float.Model.pack u).unpack := by
  cases h with
  | infinity => exact (unpack_packedInfinity .positive).symm ▸ .infinity
  | finite hpos hbits hleast hform hlow =>
    rcases unpack_pack_finite .positive hpos hbits hleast hform with h | h
    · rw [h]
      exact .finite hpos hbits hleast hform hlow
    · rw [h]
      exact .infinity

/-! ## Products and quotients -/

theorem log2_add_log2_le {m n : Nat} (hm : 0 < m) (hn : 0 < n) :
    m.log2 + n.log2 ≤ (m * n).log2 := by
  rw [Nat.le_log2 (Nat.mul_pos hm hn).ne', Nat.pow_add]
  exact Nat.mul_le_mul (Nat.log2_self_le hm.ne') (Nat.log2_self_le hn.ne')

theorem log2_add_le {m : Nat} (hm : 0 < m) (n : Nat) : m.log2 + n ≤ (m <<< n).log2 := by
  have h := log2_add_log2_le hm (Nat.two_pow_pos n)
  rwa [Nat.log2_two_pow, ← Nat.shiftLeft_eq] at h

/-- The bits of a quotient, from the bits of its parts and from a bound on the divisor. -/
theorem le_log2_div {m n c k : Nat} (hm : 0 < m) (hn : 0 < n) (hbound : n ≤ 2 ^ k)
    (hc : c + k ≤ m.log2) : 0 < m / n ∧ c ≤ (m / n).log2 := by
  have hle : 2 ^ c * n ≤ m := calc
    2 ^ c * n ≤ 2 ^ c * 2 ^ k := Nat.mul_le_mul_left _ hbound
    _ = 2 ^ (c + k) := (Nat.pow_add 2 c k).symm
    _ ≤ 2 ^ m.log2 := Nat.pow_le_pow_right (by decide) hc
    _ ≤ m := Nat.log2_self_le hm.ne'
  have hquotient : 2 ^ c ≤ m / n := (Nat.le_div_iff_mul_le hn).2 hle
  have hpos : 0 < m / n := (Nat.two_pow_pos c).trans_le hquotient
  exact ⟨hpos, (Nat.le_log2 hpos.ne').2 hquotient⟩

theorem atLeast_mul (hu : AtLeast low u) (hv : AtLeast low' v) (hleast : -1074 ≤ low + low') :
    AtLeast (low + low') (u.mul binary64 v) := by
  cases hu with
  | infinity => cases hv <;> exact .infinity
  | @finite m e hpos hbits _ hform hlow =>
    cases hv with
    | infinity => exact .infinity
    | @finite m' e' hpos' hbits' _ hform' hlow' =>
      have hlog := log2_add_log2_le hpos hpos'
      exact atLeast_roundWithAccuracy .exact (Nat.mul_pos hpos hpos') (by omega) (by omega) hleast

/-- A positive number that is not above `2 ^ high`. -/
def AtMost (high : Int) : UnpackedFloat → Prop
  | .finite .positive m e _ => e ≤ high ∧ m ≤ 2 ^ (high - e).toNat
  | _ => False

instance (high : Int) : (u : UnpackedFloat) → Decidable (AtMost high u)
  | .finite .positive _ _ _ => inferInstanceAs (Decidable (_ ∧ _))
  | .finite .negative _ _ _ | .zero _ | .infinity _ | .notANumber =>
    inferInstanceAs (Decidable False)

/-- **A quotient is as large as the bounds of its parts say.** -/
theorem atLeast_div {high : Nat} (hu : AtLeast low u) (hv : AtMost high v)
    (hleast : -1074 < low - high) : AtLeast (low - high) (u.div binary64 v) := by
  cases v with
  | notANumber => cases hv
  | infinity => cases hv
  | zero => cases hv
  | finite s' m' e' hpos' =>
    cases s' with
    | negative => cases hv
    | positive =>
      obtain ⟨he', hm'⟩ := hv
      cases hu with
      | infinity => exact .infinity
      | @finite m e hpos hbits _ hform hlow =>
        have hdiv : UnpackedFloat.div binary64 (.finite .positive m e hpos)
            (.finite .positive m' e' hpos') =
            roundWithAccuracy binary64 .positive (divCore binary64 m e m' e').1
              (divCore binary64 m e m' e').2.1 (divCore binary64 m e m' e').2.2 := rfl
        rw [hdiv]
        unfold divCore
        dsimp only
        have htarget : binary64.targetExponent (totalExponent m e - totalExponent m' e') =
            max ((m.log2 : Int) + e - m'.log2 - e' - 53) (-1074) := by
          have hmin : binary64.minExponent = -1074 := rfl
          have hbits : (binary64.mantissaBits : Int) = 53 := rfl
          rw [Format.targetExponent, totalExponent, totalExponent, hmin, hbits]
          congr 1
          omega
        rw [htarget]
        generalize ht : min (e - e') (max ((m.log2 : Int) + e - m'.log2 - e' - 53) (-1074)) = t
        generalize hs : (e - e' - t).toNat = shift
        have hshift := log2_add_le hpos shift
        have hpos₁ : 0 < m <<< shift := by
          rw [Nat.shiftLeft_eq]
          exact Nat.mul_pos hpos (Nat.two_pow_pos shift)
        -- the divisor is below the next power of two, and not above its bound
        obtain ⟨k, hk⟩ : ∃ k, k = min (m'.log2 + 1) (high - e').toNat := ⟨_, rfl⟩
        have hm₁ : m' ≤ 2 ^ (m'.log2 + 1) := ((Nat.log2_lt hpos'.ne').1 (Nat.lt_succ_self _)).le
        have hmk : m' ≤ 2 ^ k := by
          rw [hk]
          rcases min_choice (m'.log2 + 1) (high - e').toNat with h | h <;> rwa [h]
        have hquotient := le_log2_div (c := (m <<< shift).log2 - k) hpos₁ hpos' hmk (by omega)
        exact atLeast_roundWithAccuracy _ hquotient.1 (by omega) (by omega) hleast.le

theorem atLeast_round {m : Nat} (hm : 0 < m) :
    AtLeast 0 (UnpackedFloat.round binary64 .positive m 0) := by
  unfold UnpackedFloat.round decreaseExponent
  dsimp only
  rw [targetExponent_eq]
  generalize hs : (0 - max ((m.log2 : Int) + 0 - 52) (-1074)).toNat = shift
  have hlog := log2_add_le hm shift
  have hpos : 0 < m <<< shift := by
    rw [Nat.shiftLeft_eq]
    exact Nat.mul_pos hm (Nat.two_pow_pos shift)
  exact atLeast_roundWithAccuracy .exact hpos (by omega) (by omega) (by decide)

theorem atLeast_ofInt {n : Nat} (hn : 0 < n) : AtLeast 0 (UnpackedFloat.ofNat binary64 n) := by
  unfold UnpackedFloat.ofNat UnpackedFloat.ofInt UnpackedFloat.normalize
  split
  · rename_i hlt
    have := Int.compare_eq_lt.1 hlt
    omega
  · rename_i heq
    have := Int.compare_eq_eq.1 heq
    omega
  · exact atLeast_round hn

theorem atLeast_ofScientific {n : Nat} (hn : 0 < n) :
    AtLeast 0 (UnpackedFloat.ofScientific binary64 n 0) := by
  have hpower : (2 ^ binary64.exponentBits : Int) = 2048 := rfl
  have hsmall : ¬ ((0 : Int) > 2 ^ binary64.exponentBits) := by decide
  have hlarge : ¬ ((0 : Int) < -(2 ^ binary64.exponentBits + n.log2)) := by
    rw [hpower]
    omega
  have hpos : 0 < n <<< 53 := by
    rw [Nat.shiftLeft_eq]
    exact Nat.mul_pos hn (Nat.two_pow_pos 53)
  have hlog := log2_add_le hn 53
  have hmul (h : 0 < n <<< 53) (h' : 0 < 10 ^ (0 : Int).toNat) :
      UnpackedFloat.mul binary64 (.finite .positive (n <<< 53) (-53) h)
        (.finite .positive (10 ^ (0 : Int).toNat) 0 h') =
        roundWithAccuracy binary64 .positive (n <<< 53 * 10 ^ (0 : Int).toNat) (-53) .exact := rfl
  have hone : n <<< 53 * 10 ^ (0 : Int).toNat = n <<< 53 := Nat.mul_one _
  unfold UnpackedFloat.ofScientific
  rw [dif_neg hn.ne', if_neg hsmall, if_neg hlarge, if_pos (Int.le_refl 0)]
  refine (hmul hpos (by decide)).symm ▸ hone.symm ▸ ?_
  exact atLeast_roundWithAccuracy .exact hpos (by omega) (by omega) (by decide)

/-- **A natural number but zero is at least one** as a double. -/
theorem atLeast_ofNat {n : Nat} (hn : 0 < n) : AtLeast 0 (Float.ofNat n).toModel.unpack := by
  change AtLeast 0 (Float.ofScientific n false 0).toModel.unpack
  unfold Float.ofScientific
  split
  · rename_i hsmall
    have hword : AtLeast 0 n.toUInt64.toFloat.toModel.unpack := by
      have hvalue : n.toUInt64.toNat = n := Nat.mod_eq_of_lt (hsmall.1.trans (by decide))
      exact (atLeast_ofInt (hvalue.symm ▸ hn : 0 < n.toUInt64.toNat)).stored
    have hone : AtLeast 0 (Float.ofBits 0x3FF0000000000000).toModel.unpack :=
      .finite (by decide : 0 < 2 ^ 52) (by decide) (by decide) (by decide) (by decide)
    exact (atLeast_mul hword hone (by decide)).stored
  · exact (atLeast_ofScientific hn).stored

end Letterpress.Decimal
