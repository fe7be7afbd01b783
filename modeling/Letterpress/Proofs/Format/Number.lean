/-
  Numbers with grouped thousands.

  * `Groups` is a text in groups of three characters, of which the first may be shorter;
    `exists_groups`: `groupThousands` writes the groups of a text with commas between them.
  * `roundedAbs_cases`: the rounded absolute value of a number is zero, or at least one unit of the
    last decimal up to a factor below two, so that it is not written with zeros alone.
  * `formatNumber_groups`: **a formatted number is the text of its rounded value** with commas
    between the groups before the point, and a minus exactly if it is negative and not rounded to
    zero.
-/
import Letterpress.Format.Number
import Letterpress.Proofs.Decimal.Fixed
import Letterpress.Proofs.Text.Cutting

namespace Letterpress.Format

open Decimal
open Float.Model (UnpackedFloat)
open Float.Model.Format (binary64)
open Float.Model.UnpackedFloat (roundWithAccuracy)

/-! ## Groups -/

/-- A text in groups of three characters, of which the first may be shorter. -/
structure Groups where
  first : List Char
  later : List (List Char)
  length_first : 1 ≤ first.length ∧ first.length ≤ 3
  length_later : ∀ g ∈ later, g.length = 3

namespace Groups

/-- The text without its division into groups. -/
def text (g : Groups) : List Char := g.first ++ g.later.flatten

/-- The text with a comma between neighbours. -/
def written (g : Groups) : List Char := g.first ++ g.later.flatMap (',' :: ·)

theorem length_text (g : Groups) : g.text.length = g.first.length + 3 * g.later.length := by
  have hflatten (gs : List (List Char)) (h : ∀ g ∈ gs, g.length = 3) :
      gs.flatten.length = 3 * gs.length := by
    rw [List.length_flatten, List.map_congr_left h, List.map_const', List.sum_replicate_nat,
      Nat.mul_comm]
  rw [text, List.length_append, hflatten g.later g.length_later]

theorem filter_written (g : Groups) (h : ',' ∉ g.text) : g.written.filter (· ≠ ',') = g.text := by
  rw [text, List.mem_append, not_or] at h
  have hfilter {s : List Char} (hs : ',' ∉ s) : s.filter (· ≠ ',') = s :=
    List.filter_eq_self.2 fun c hc => decide_eq_true fun (heq : c = ',') => hs (heq ▸ hc)
  have hlater (gs : List (List Char)) (hgs : ',' ∉ gs.flatten) :
      (gs.flatMap (',' :: ·)).filter (· ≠ ',') = gs.flatten := by
    induction gs with
    | nil => rfl
    | cons t gs ih =>
      rw [List.flatten_cons, List.mem_append, not_or] at hgs
      rw [List.flatMap_cons, List.cons_append, List.filter_cons_of_neg (by decide),
        List.filter_append, hfilter hgs.1, ih hgs.2, List.flatten_cons]
  rw [written, text, List.filter_append, hfilter h.1, hlater g.later h.2]

theorem mem_written {g : Groups} {c : Char} (hc : c ≠ ',') : c ∈ g.written ↔ c ∈ g.text := by
  simp [written, text, hc]

end Groups

/-- **Thousands are grouped from the right.** -/
theorem exists_groups {s : List Char} (hs : s ≠ []) :
    ∃ g : Groups, g.text = s ∧ groupThousands s = g.written := by
  induction s with
  | nil => exact absurd rfl hs
  | cons c s ih =>
    cases s with
    | nil => exact ⟨⟨[c], [], by simp, nofun⟩, rfl, rfl⟩
    | cons d s =>
      obtain ⟨⟨first, later, hfirst, hlater⟩, htext, hwritten⟩ := ih (List.cons_ne_nil d s)
      have hlength : (d :: s).length = first.length + 3 * later.length := by
        rw [← htext]
        exact Groups.length_text _
      have hnonempty : (!(d :: s).isEmpty) = true := rfl
      rw [groupThousands, hwritten, hnonempty, Bool.and_true]
      by_cases hfull : (d :: s).length % 3 = 0
      · -- the groups so far are complete, and the character starts another one
        have hthree : first.length = 3 := by omega
        refine ⟨⟨[c], first :: later, by simp, List.forall_mem_cons.2 ⟨hthree, hlater⟩⟩, ?_, ?_⟩
        · rw [← htext]
          rfl
        · rw [if_pos (decide_eq_true hfull)]
          rfl
      · have hshort : (c :: first).length ≤ 3 := by
          rw [List.length_cons]
          omega
        refine ⟨⟨c :: first, later, ⟨Nat.succ_pos _, hshort⟩, hlater⟩, ?_, ?_⟩
        · rw [← htext]
          rfl
        · rw [if_neg (by rwa [decide_eq_true_iff])]
          rfl

/-! ## The rounded value -/

theorem lt_iff {x y : Float} : x < y ↔ x.toModel.unpack.lt y.toModel.unpack = true :=
  decide_eq_true_iff

theorem unpack_ne_notANumber_of_lt {x y : Float} (h : x < y) :
    x.toModel.unpack ≠ .notANumber := by
  intro hx
  rw [lt_iff, hx] at h
  cases h

theorem abs_ne_notANumber {u : UnpackedFloat} (h : u ≠ .notANumber) : u.abs ≠ .notANumber := by
  cases u with
  | notANumber => exact absurd rfl h
  | infinity | zero | finite => nofun

theorem mul_ne_notANumber {high : Int} {u v : UnpackedFloat} (hu : u ≠ .notANumber)
    (hv : AtMost high v) : u.mul binary64 v ≠ .notANumber := by
  cases v with
  | notANumber | infinity | zero => cases hv
  | finite s m e hpos =>
    cases u with
    | notANumber => exact absurd rfl hu
    | infinity | zero => nofun
    | finite s' m' e' hpos' =>
      change roundWithAccuracy binary64 _ _ _ _ ≠ _
      unfold roundWithAccuracy
      dsimp only
      split <;> nofun

/-- The factors are exact; the bound on them is a power of two below twice the factor. -/
theorem power_atMost {places : Nat} (h : places ≤ maxPlaces) :
    ∃ k : Nat, k < 100 ∧ 2 ^ k < 2 * 10 ^ places ∧
      AtMost k (Float.ofNat (Nat.pow 10 places)).toModel.unpack := by
  have hall : ∀ p < 21, (if p = 0 then 0 else (10 ^ p).log2 + 1) < 100 ∧
      2 ^ (if p = 0 then 0 else (10 ^ p).log2 + 1) < 2 * 10 ^ p ∧
      AtMost (if p = 0 then 0 else (10 ^ p).log2 + 1 : Nat)
        (Float.ofNat (Nat.pow 10 p)).toModel.unpack := by
    decide +kernel
  exact ⟨_, hall places (Nat.lt_succ_of_le h)⟩

/-- A whole number is zero or at least one. -/
theorem wholeAbs_cases {x : Float} (hx : x.toModel.unpack ≠ .notANumber) :
    (wholeAbs x).toModel.unpack = .zero .positive ∨ AtLeast 0 (wholeAbs x).toModel.unpack := by
  unfold wholeAbs
  split
  · rcases Nat.eq_zero_or_pos (roundHalfUp (Dyadic.ofFloat x).numerator
      (Dyadic.ofFloat x).denominator) with h | h
    · left
      dsimp only
      rw [h]
      rfl
    · exact .inr (atLeast_ofNat h)
  · rename_i hfinite
    right
    have habs : x.abs.toModel.unpack = (Float.Model.pack x.toModel.unpack.abs).unpack := rfl
    rw [habs]
    change ¬ x.toModel.unpack.isFinite = true at hfinite
    generalize x.toModel.unpack = u at *
    cases u with
    | notANumber => exact absurd rfl hx
    | infinity s => exact AtLeast.infinity.stored
    | zero | finite => exact absurd rfl hfinite

/-- **The rounded value of a number** is zero, or at least one unit of the last decimal up to a
    factor below two. -/
theorem roundedAbs_cases {number : Float} (hnumber : number.toModel.unpack ≠ .notANumber)
    {places : Nat} (hplaces : places ≤ maxPlaces) :
    (roundedAbs number places).toModel.unpack = .zero .positive ∨
      ∃ k : Nat, 2 ^ k < 2 * 10 ^ places ∧
        AtLeast (-k) (roundedAbs number places).toModel.unpack := by
  obtain ⟨k, hk, hpower, hfactor⟩ := power_atMost hplaces
  have hscaled : (number.abs * Float.ofNat (Nat.pow 10 places)).toModel.unpack ≠ .notANumber :=
    stored_ne_notANumber
      (mul_ne_notANumber (stored_ne_notANumber (abs_ne_notANumber hnumber)) hfactor)
  have hdiv : (roundedAbs number places).toModel.unpack = (Float.Model.pack
      ((wholeAbs (number.abs * Float.ofNat (Nat.pow 10 places))).toModel.unpack.div binary64
        (Float.ofNat (Nat.pow 10 places)).toModel.unpack)).unpack := rfl
  rw [hdiv]
  rcases wholeAbs_cases hscaled with hzero | hone
  · left
    rw [hzero]
    generalize (Float.ofNat (Nat.pow 10 places)).toModel.unpack = v at hfactor
    cases v with
    | notANumber | infinity | zero => cases hfactor
    | finite s m e hpos =>
      cases s with
      | negative => cases hfactor
      | positive => exact stored_zero .positive
  · refine .inr ⟨k, hpower, ?_⟩
    have hquotient := (atLeast_div hone hfactor (by omega)).stored
    rwa [Int.zero_sub] at hquotient

theorem roundedAbs_of_notANumber {number : Float} (hnumber : number.toModel.unpack = .notANumber)
    (places : Nat) : (roundedAbs number places).toModel.unpack = .notANumber := by
  have hmul (v : UnpackedFloat) : UnpackedFloat.mul binary64 .notANumber v = .notANumber := by
    cases v <;> rfl
  have hdiv (v : UnpackedFloat) : UnpackedFloat.div binary64 .notANumber v = .notANumber := by
    cases v <;> rfl
  have hstored : (Float.Model.pack .notANumber).unpack = .notANumber := rfl
  have habs {x : Float} (hx : x.toModel.unpack = .notANumber) :
      x.abs.toModel.unpack = .notANumber := by
    change (Float.Model.pack x.toModel.unpack.abs).unpack = _
    rw [hx]
    exact hstored
  have hscaled {x y : Float} (hx : x.toModel.unpack = .notANumber) :
      (x * y).toModel.unpack = .notANumber := by
    change (Float.Model.pack (x.toModel.unpack.mul binary64 y.toModel.unpack)).unpack = _
    rw [hx, hmul]
    exact hstored
  have hwhole {x : Float} (hx : x.toModel.unpack = .notANumber) :
      (wholeAbs x).toModel.unpack = .notANumber := by
    have hfinite : x.isFinite = x.toModel.unpack.isFinite := rfl
    rw [hx] at hfinite
    rw [wholeAbs, hfinite]
    exact habs hx
  change (Float.Model.pack ((wholeAbs _).toModel.unpack.div binary64 _)).unpack = _
  rw [hwhole (hscaled (habs hnumber)), hdiv]
  exact hstored

theorem compare_of_zero {x : Float} (h : x.toModel.unpack = .zero .positive) :
    ¬ x > 0.0 ∧ (x == 0.0) = true := by
  have hzero : (0.0 : Float).toModel.unpack = .zero .positive := rfl
  have heq : (x == 0.0) = x.toModel.unpack.beq (0.0 : Float).toModel.unpack := rfl
  rw [gt_iff_lt, lt_iff, heq, h, hzero]
  exact ⟨by decide, rfl⟩

theorem compare_of_atLeast {x : Float} {low : Int} (h : AtLeast low x.toModel.unpack) :
    x > 0.0 ∧ (x == 0.0) = false := by
  have hzero : (0.0 : Float).toModel.unpack = .zero .positive := rfl
  have heq : (x == 0.0) = x.toModel.unpack.beq (0.0 : Float).toModel.unpack := rfl
  rw [gt_iff_lt, lt_iff, heq, hzero]
  generalize x.toModel.unpack = u at h
  cases h <;> exact ⟨rfl, rfl⟩

/-! ## The text of the rounded value -/

/-- The text of a number without a sign: letters or digits, and decimals behind a point. -/
structure Parts (decimals : Nat) (whole : List Char) (fraction : Option (List Char)) : Prop where
  nonempty : whole ≠ []
  whole : ∀ c ∈ whole, c.isAlphanum = true
  fraction : ∀ f ∈ fraction, f.length = decimals ∧ ∀ c ∈ f, c.isDigit = true

/-- A text of such parts. -/
def HasParts (decimals : Nat) (text : List Char) : Prop :=
  ∃ whole fraction, text = whole ++ behindPoint fraction ∧ Parts decimals whole fraction

theorem hasParts_word {decimals : Nat} {word : List Char} (hne : word ≠ [])
    (h : ∀ c ∈ word, c.isAlphanum = true) : HasParts decimals word :=
  ⟨word, none, (List.append_nil _).symm, hne, h, nofun⟩

theorem isAlphanum_of_isDigit {c : Char} (h : c.isDigit = true) : c.isAlphanum = true := by
  rw [Char.isAlphanum, h, Bool.or_true]

theorem hasParts_withPoint (decimals n : Nat) : HasParts decimals (withPoint decimals n) := by
  obtain ⟨whole, fraction, heq, hne, hwhole, hfraction⟩ := withPoint_eq decimals n
  exact ⟨whole, fraction, heq, hne, fun c hc => isAlphanum_of_isDigit (hwhole c hc), hfraction⟩

section

variable {x : Float} {decimals : Nat}

theorem isNaN_eq (x : Float) : x.isNaN = x.toModel.unpack.isNaN := rfl

theorem isInf_eq (x : Float) : x.isInf = x.toModel.unpack.isInf := rfl

theorem hasParts_of_notANumber (hx : x.toModel.unpack = .notANumber) :
    HasParts decimals (fixed decimals x) := by
  have hnan : x.isNaN = true := by
    rw [isNaN_eq, hx]
    rfl
  have hword : ∀ c ∈ ['N', 'a', 'N'], c.isAlphanum = true := List.all_eq_true.1 rfl
  rw [fixed, if_pos hnan]
  exact hasParts_word (List.cons_ne_nil _ _) hword

/-- A number without a sign. -/
theorem fixed_of_positive (hx : signOf? x.toModel.unpack = some .positive) :
    fixed decimals x = if x.isInf then ['i', 'n', 'f']
      else withPoint decimals ((Dyadic.ofFloat x).scaled decimals) := by
  have hnan : x.isNaN = false := by
    rw [isNaN_eq]
    generalize x.toModel.unpack = u at hx
    cases u with
    | notANumber => cases hx
    | infinity | zero | finite => rfl
  rw [fixed, hnan, if_neg Bool.false_ne_true, isNegative_eq_false hx, if_neg Bool.false_ne_true]
  rfl

theorem hasParts_of_positive (hx : signOf? x.toModel.unpack = some .positive) :
    HasParts decimals (fixed decimals x) := by
  have hword : ∀ c ∈ ['i', 'n', 'f'], c.isAlphanum = true := List.all_eq_true.1 rfl
  rw [fixed_of_positive hx]
  split
  · exact hasParts_word (List.cons_ne_nil _ _) hword
  · exact hasParts_withPoint _ _

theorem signOf?_of_atLeast {low : Int} {u : UnpackedFloat} (h : AtLeast low u) :
    signOf? u = some .positive := by
  cases h <;> rfl

/-- What is not below half a unit of the last decimal is not written with zeros alone. -/
theorem exists_digit_fixed {k : Nat} (hk : 2 ^ k < 2 * 10 ^ decimals)
    (hx : AtLeast (-k) x.toModel.unpack) : ∃ c ∈ fixed decimals x, c ≠ '0' ∧ c ≠ '.' := by
  have hletter : 'i' ≠ '0' ∧ 'i' ≠ '.' := by decide
  rw [fixed_of_positive (signOf?_of_atLeast hx)]
  split
  · exact ⟨'i', List.mem_cons_self, hletter⟩
  · rename_i hinf
    rw [isInf_eq] at hinf
    generalize hu : x.toModel.unpack = u at hx hinf
    cases hx with
    | infinity => exact absurd rfl hinf
    | finite hpos _ _ _ hlow => exact exists_digit_withPoint (scaled_pos hu hlow hk) decimals

end

/-! ## The formatted number -/

/-- A text without the minus that it starts with. -/
def withoutMinus : List Char → List Char
  | '-' :: s => s
  | s => s

theorem withoutMinus_eq_self {s : List Char} (h : '-' ∉ s) : withoutMinus s = s := by
  cases s with
  | nil => rfl
  | cons c s =>
    have hc : c ≠ '-' := fun heq => h (heq ▸ List.mem_cons_self)
    rw [withoutMinus]
    rintro t ⟨⟩
    exact hc rfl

theorem formatNumber_eq {number : Float} {places : Nat} {whole : List Char}
    {fraction : Option (List Char)}
    (htext : fixed (min places maxPlaces) (roundedAbs number (min places maxPlaces)) =
      whole ++ behindPoint fraction) (hpoint : '.' ∉ whole) :
    (formatNumber number places).toList =
      (if number < 0.0 && roundedAbs number (min places maxPlaces) > 0.0 then ['-'] else []) ++
        (groupThousands whole ++ behindPoint fraction) := by
  rw [formatNumber, htext]
  cases fraction with
  | none =>
    have hsplit : Text.splitOnce '.' (whole ++ behindPoint none) = none := by
      rw [behindPoint, List.append_nil]
      exact Text.splitOnce_eq_none hpoint
    rw [hsplit]
    simp [behindPoint]
  | some f =>
    have hsplit : Text.splitOnce '.' (whole ++ behindPoint (some f)) = some (whole, f) :=
      Text.splitOnce_append_cons hpoint
    rw [hsplit]
    simp [behindPoint]

/-- The sign that is written is that of a number that is not rounded to zero. -/
theorem minus_eq (number : Float) (places : Nat) :
    (number < 0.0 && roundedAbs number (min places maxPlaces) > 0.0 : Bool) =
      (number < 0.0 && !(roundedAbs number (min places maxPlaces) == 0.0)) := by
  by_cases hnegative : number < 0.0
  · rw [decide_eq_true hnegative, Bool.true_and, Bool.true_and]
    rcases roundedAbs_cases (unpack_ne_notANumber_of_lt hnegative) (Nat.min_le_right places _)
      with hzero | ⟨k, -, hlow⟩
    · obtain ⟨hgt, heq⟩ := compare_of_zero hzero
      rw [decide_eq_false hgt, heq]
      rfl
    · obtain ⟨hgt, heq⟩ := compare_of_atLeast hlow
      rw [decide_eq_true hgt, heq]
      rfl
  · rw [decide_eq_false hnegative, Bool.false_and, Bool.false_and]

/-- The text of every rounded value has such parts. -/
theorem hasParts_roundedAbs (number : Float) (places : Nat) :
    HasParts (min places maxPlaces)
      (fixed (min places maxPlaces) (roundedAbs number (min places maxPlaces))) := by
  by_cases hnumber : number.toModel.unpack = .notANumber
  · exact hasParts_of_notANumber (roundedAbs_of_notANumber hnumber _)
  · apply hasParts_of_positive
    rcases roundedAbs_cases hnumber (Nat.min_le_right places _) with hzero | ⟨k, -, hlow⟩
    · rw [hzero]
      rfl
    · exact signOf?_of_atLeast hlow

section

variable {decimals : Nat} {whole : List Char} {fraction : Option (List Char)} {c : Char}

theorem Parts.notMem_whole (h : Parts decimals whole fraction) (hc : c.isAlphanum = false) :
    c ∉ whole := fun hmem => Bool.false_ne_true (hc.symm.trans (h.whole c hmem))

theorem Parts.notMem_behindPoint (h : Parts decimals whole fraction) (hc : c.isAlphanum = false)
    (hpoint : c ≠ '.') : c ∉ behindPoint fraction := by
  cases fraction with
  | none => exact List.not_mem_nil
  | some f =>
    rw [behindPoint, List.mem_cons, not_or]
    refine ⟨hpoint, fun hmem => ?_⟩
    exact Bool.false_ne_true (hc.symm.trans (isAlphanum_of_isDigit ((h.fraction f rfl).2 c hmem)))

end

/-- **A formatted number** is the text of its rounded absolute value with a comma between the
    groups of three before the point.  Behind the point there are at most `maxPlaces` digits.
    The minus stands for a negative number that is not rounded to zero, and what it stands before
    is not written with zeros alone. -/
theorem formatNumber_groups (number : Float) (places : Nat) :
    let decimals := min places maxPlaces
    let rounded := roundedAbs number decimals
    let text := fixed decimals rounded
    let shown := (formatNumber number places).toList
    let minus : Bool := number < 0.0 && !(rounded == 0.0)
    withoutMinus (shown.filter (· ≠ ',')) = text ∧
      (∃ (g : Groups) (fraction : Option (List Char)),
        Parts decimals g.text fraction ∧ text = g.text ++ behindPoint fraction ∧
          shown = (if minus then ['-'] else []) ++ (g.written ++ behindPoint fraction)) ∧
      ('-' ∈ shown ↔ minus = true) ∧
      (minus = true → ∃ c ∈ text, c ≠ '0' ∧ c ≠ '.') := by
  intro decimals rounded text shown minus
  obtain ⟨whole, fraction, htext, hparts⟩ := hasParts_roundedAbs number places
  obtain ⟨g, rfl, hgrouped⟩ := exists_groups hparts.nonempty
  have hcomma : ',' ∉ g.text := hparts.notMem_whole rfl
  have hshown : shown = (if minus then ['-'] else []) ++ (g.written ++ behindPoint fraction) := by
    have hsigned := formatNumber_eq htext (hparts.notMem_whole rfl)
    rwa [minus_eq, hgrouped] at hsigned
  have hfraction : (behindPoint fraction).filter (· ≠ ',') = behindPoint fraction :=
    List.filter_eq_self.2 fun c hc => decide_eq_true fun (heq : c = ',') =>
      hparts.notMem_behindPoint rfl (by decide) (heq ▸ hc)
  have hunsigned : '-' ∉ g.text ++ behindPoint fraction := fun h =>
    (List.mem_append.1 h).elim (hparts.notMem_whole rfl)
      (hparts.notMem_behindPoint rfl (by decide))
  refine ⟨?_, ⟨g, fraction, hparts, htext, hshown⟩, ?_, fun hminus => ?_⟩
  · rw [hshown, List.filter_append, List.filter_append, g.filter_written hcomma, hfraction,
      ← htext]
    cases minus with
    | true => rfl
    | false => exact withoutMinus_eq_self (htext ▸ hunsigned)
  · rw [hshown, List.mem_append, List.mem_append, Groups.mem_written (by decide),
      ← List.mem_append, or_iff_left hunsigned]
    cases minus with
    | true => exact iff_of_true List.mem_cons_self rfl
    | false => exact iff_of_false List.not_mem_nil Bool.false_ne_true
  · -- a number that is below zero and not rounded to it is at least a unit of the last decimal
    obtain ⟨hnegative, hnonzero⟩ := Bool.and_eq_true_iff.1 hminus
    rcases roundedAbs_cases (unpack_ne_notANumber_of_lt (decide_eq_true_iff.1 hnegative))
      (Nat.min_le_right places _) with hzero | ⟨k, hk, hlow⟩
    · rw [show (rounded == 0.0) = true from (compare_of_zero hzero).2] at hnonzero
      cases hnonzero
    · exact exists_digit_fixed hk hlow

end Letterpress.Format
