/-
  Doubles with a fixed number of decimals.

  * `ofFloat_of_finite` and `isNegative_eq_false`: the bits that `Dyadic.ofFloat` and `isNegative`
    read are those of the unpacked number.
  * `scaled_pos`: a number that is not below half a unit of the last place is not rounded to zero.
-/
import Letterpress.Decimal.Layout
import Letterpress.Proofs.Decimal.Layout
import Letterpress.Proofs.Decimal.Magnitude

namespace Letterpress.Decimal

open Float.Model (Format UnpackedFloat)
open Float.Model.Format (binary64)
open Float.Model.UnpackedFloat hiding pack unpack mul div neg ofNat ofInt round normalize

/-! ## Bits -/

variable {x : Float}

/-- The bits of a double. -/
abbrev bitsOf (x : Float) : BitVec binary64.numBits := x.toModel.toBits.toBitVec

theorem toNat_exponentBits (x : Float) :
    ((x.toBits >>> 52) &&& 0x7FF).toNat = (unpackExponent (bitsOf x)).toNat := by
  have hmask : (0x7FF : UInt64).toNat = 2 ^ 11 - 1 := by decide
  rw [UInt64.toNat_and, UInt64.toNat_shiftRight, hmask, Nat.and_two_pow_sub_one_eq_mod,
    unpackExponent_def, BitVec.extractLsb'_toNat]
  rfl

theorem toNat_fractionBits (x : Float) :
    (x.toBits &&& 0xFFFFFFFFFFFFF).toNat = (unpackMantissa (bitsOf x)).toNat := by
  have hmask : (0xFFFFFFFFFFFFF : UInt64).toNat = 2 ^ 52 - 1 := by decide
  rw [UInt64.toNat_and, hmask, Nat.and_two_pow_sub_one_eq_mod, unpackMantissa_def,
    BitVec.extractLsb'_toNat]
  rfl

/-- The sign of a number. -/
def signOf? : UnpackedFloat → Option Sign
  | .notANumber => none
  | .infinity s | .zero s | .finite s _ _ _ => some s

theorem isNegative_eq_false (hx : signOf? x.toModel.unpack = some .positive) :
    isNegative x = false := by
  have hsign : Sign.ofBitVec (unpackSign (bitsOf x)) = .positive := by
    change signOf? (UnpackedFloat.unpack binary64 (bitsOf x)) = _ at hx
    unfold UnpackedFloat.unpack at hx
    dsimp only at hx
    split at hx
    · split at hx
      · exact Option.some.inj hx
      · cases hx
    · split at hx
      · split at hx <;> exact Option.some.inj hx
      · exact Option.some.inj hx
  have hbit : unpackSign (bitsOf x) ≠ 1#1 := by
    intro h
    rw [h] at hsign
    cases hsign
  rw [isNegative, beq_eq_false_iff_ne]
  intro h
  refine hbit (BitVec.eq_of_toNat_eq ?_)
  have htop := congrArg UInt64.toNat h
  rw [UInt64.toNat_shiftRight] at htop
  rw [unpackSign_def, BitVec.extractLsb'_toNat]
  change x.toBits.toNat >>> 63 % 2 = 1
  change x.toBits.toNat >>> 63 = 1 at htop
  rw [htop]

/-- The exact value of a number that is not zero. -/
theorem ofFloat_of_finite {s : Sign} {m : Nat} {e : Int} {h : 0 < m}
    (hx : x.toModel.unpack = .finite s m e h) :
    (Dyadic.ofFloat x).mantissa = m ∧ (Dyadic.ofFloat x).exponent = e := by
  change UnpackedFloat.unpack binary64 (bitsOf x) = _ at hx
  unfold UnpackedFloat.unpack at hx
  rw [Dyadic.ofFloat, Dyadic.ofBits, toNat_exponentBits, toNat_fractionBits]
  dsimp only at hx ⊢
  split at hx
  · split at hx <;> cases hx
  · split at hx
    · rename_i hzero
      rw [hzero, if_pos (by rfl)]
      split at hx
      · cases hx
      · rename_i hmantissa
        obtain ⟨-, rfl, rfl⟩ := UnpackedFloat.finite.inj hx
        exact ⟨rfl, by rw [hzero]; rfl⟩
    · rename_i hzero
      rw [if_neg (by intro h0; exact hzero (BitVec.eq_of_toNat_eq h0))]
      obtain ⟨-, rfl, rfl⟩ := UnpackedFloat.finite.inj hx
      exact ⟨(toNat_one_append _).symm, rfl⟩

/-! ## Rounding to a fixed number of decimals -/

theorem roundDiv_pos {num den : Nat} (h : den < 2 * num) : 0 < roundDiv num den := by
  rw [roundDiv]
  by_cases hquotient : num / den = 0
  · have hrest : num % den = num := by
      have hsum := Nat.div_add_mod num den
      rwa [hquotient, Nat.mul_zero, Nat.zero_add] at hsum
    rw [hquotient, hrest, Nat.compare_eq_gt.2 h]
    exact Nat.one_pos
  · have hpos := Nat.pos_of_ne_zero hquotient
    split
    · exact hpos
    · exact Nat.succ_pos _
    · split <;> omega

/-- **What is not below half a unit** of the last place is not rounded to zero. -/
theorem scaled_pos {k : Nat} {s : Sign} {m : Nat} {e : Int} {h : 0 < m}
    (hx : x.toModel.unpack = .finite s m e h) (hlow : -k ≤ m.log2 + e) {places : Nat}
    (hk : 2 ^ k < 2 * 10 ^ places) : 0 < (Dyadic.ofFloat x).scaled places := by
  obtain ⟨hm, he⟩ := ofFloat_of_finite hx
  have hnumerator : 0 < m * 2 ^ e.toNat := Nat.mul_pos h (Nat.two_pow_pos _)
  refine roundDiv_pos ?_
  change Nat.pow 2 _ < _
  rw [Dyadic.numerator, hm, he]
  calc 2 ^ (-e).toNat ≤ 2 ^ (m.log2 + e.toNat + k) := Nat.pow_le_pow_right (by decide) (by omega)
    _ = 2 ^ m.log2 * 2 ^ e.toNat * 2 ^ k := by rw [Nat.pow_add, Nat.pow_add]
    _ ≤ m * 2 ^ e.toNat * 2 ^ k :=
      Nat.mul_le_mul_right _ (Nat.mul_le_mul_right _ (Nat.log2_self_le h.ne'))
    _ < m * 2 ^ e.toNat * (2 * 10 ^ places) := Nat.mul_lt_mul_of_pos_left hk hnumerator
    _ = 2 * (m * 2 ^ e.toNat * 10 ^ places) := by ac_rfl

/-! ## The text -/

/-- The decimals behind a point, if there are any. -/
def behindPoint : Option (List Char) → List Char
  | none => []
  | some fraction => '.' :: fraction

theorem isDigit_digitsOf {n : Nat} : ∀ c ∈ digitsOf n, c.isDigit = true :=
  fun _ hc => Nat.isDigit_of_mem_toDigits (by decide) (by decide) hc

theorem isDigit_padded {width n : Nat} : ∀ c ∈ padded width n, c.isDigit = true := by
  refine List.forall_mem_append.2 ⟨fun c hc => ?_, isDigit_digitsOf⟩
  rw [List.eq_of_mem_replicate hc]
  rfl

/-- The parts of a number with a fixed number of decimals. -/
theorem withPoint_eq (places n : Nat) :
    ∃ whole fraction, withPoint places n = whole ++ behindPoint fraction ∧ whole ≠ [] ∧
      (∀ c ∈ whole, c.isDigit = true) ∧
      ∀ f ∈ fraction, f.length = places ∧ ∀ c ∈ f, c.isDigit = true := by
  rw [withPoint]
  split
  · refine ⟨digitsOf n, none, (List.append_nil _).symm, digitsOf_ne_nil, isDigit_digitsOf, ?_⟩
    intro f hf
    cases hf
  · obtain ⟨ds, hds⟩ : ∃ ds, ds = padded (places + 1) n := ⟨_, rfl⟩
    have hlength : places + 1 ≤ ds.length := by
      rw [hds, padded, List.length_append, List.length_replicate]
      omega
    have hdigits : ∀ c ∈ ds, c.isDigit = true := hds ▸ isDigit_padded
    refine ⟨ds.take (ds.length - places), some (ds.drop (ds.length - places)), by rw [hds]; rfl,
      ?_, fun c hc => hdigits c (List.mem_of_mem_take hc), ?_⟩
    · rw [← List.length_pos_iff, List.length_take]
      omega
    · rintro f ⟨⟩
      refine ⟨?_, fun c hc => hdigits c (List.mem_of_mem_drop hc)⟩
      rw [List.length_drop]
      omega

/-- A number that is not zero is not written with zeros alone. -/
theorem exists_digit_withPoint {n : Nat} (hn : 0 < n) (places : Nat) :
    ∃ c ∈ withPoint places n, c ≠ '0' ∧ c ≠ '.' := by
  obtain ⟨c, hc, hzero⟩ : ∃ c ∈ digitsOf n, c ≠ '0' := by
    by_contra hall
    have hzeros : digitsOf n = List.replicate (digitsOf n).length '0' :=
      List.eq_replicate_of_mem fun c hc => by_contra fun h => hall ⟨c, hc, h⟩
    have hvalue : Nat.ofDigitChars 10 (digitsOf n) 0 = n := Nat.ofDigitChars_ten_toDigits
    rw [hzeros, Nat.ofDigitChars_replicate_zero] at hvalue
    omega
  have hpoint : c ≠ '.' := by
    rintro rfl
    exact absurd (isDigit_digitsOf _ hc) (by decide)
  refine ⟨c, ?_, hzero, hpoint⟩
  rw [withPoint]
  split
  · exact hc
  · have hmem : c ∈ padded (places + 1) n := List.mem_append_right _ hc
    rw [← List.take_append_drop ((padded (places + 1) n).length - places) (padded (places + 1) n),
      List.mem_append] at hmem
    rcases hmem with hmem | hmem
    · exact List.mem_append_left _ hmem
    · exact List.mem_append_right _ (List.mem_cons_of_mem _ hmem)

end Letterpress.Decimal
