/-
  Which texts are colors, and what is blended from them.

  * `HexDigit c v`: the digit and its value.
  * `Rgb.Names First s c`: the text names the color by the characters behind its hash signs
    (`Rgb.Denoted`), when `First` says what the first one of a channel can be.  With `HexDigit`
    these are the colors of three or six digits.
  * `Rgb.parse?_eq_some_iff`: what is read, where a plus counts as a first digit zero
    (`PlusOrDigit`); `Rgb.denoted_iff`: nothing else differs.
  * `Rgb.names_text`: a color that is written is one of six digits.
  * `colors_exact`: **the texts without a plus that are read are the colors**, a text that is not
    read is not blended, and what is blended is a color again, whatever the opacity is.
  * `signed_channels_are_read`: a text with plus signs is read, and blended.
-/
import Letterpress.Markup.Color
import Letterpress.Proofs.Decimal.Truncation

namespace Letterpress.Markup

/-! ## Digits -/

/-- A hexadecimal digit and its value. -/
def HexDigit (c : Char) (v : Nat) : Prop :=
  v < 16 ∧ (c = Nat.digitChar v ∨ c = (Nat.digitChar v).toUpper)

instance (c : Char) (v : Nat) : Decidable (HexDigit c v) :=
  inferInstanceAs (Decidable (_ ∧ _))

variable {c : Char} {v : Nat}

theorem HexDigit.isAlphanum (h : HexDigit c v) : c.isAlphanum = true := by
  have hall : ∀ v < 16, (Nat.digitChar v).isAlphanum = true ∧
      (Nat.digitChar v).toUpper.isAlphanum = true := by decide
  obtain ⟨hlt, rfl | rfl⟩ := h
  · exact (hall v hlt).1
  · exact (hall v hlt).2

/-- **A hexadecimal digit is read as its value**, and nothing else is. -/
theorem hexValue?_eq_some_iff : Json.hexValue? c = some v ↔ HexDigit c v := by
  constructor
  · intro h
    -- the three runs of digits, by their first character and its value
    have hdecimal : ∀ i < 10, HexDigit (Char.ofNat (48 + i)) i := by decide
    have hlower : ∀ i < 6, HexDigit (Char.ofNat (97 + i)) (10 + i) := by decide
    have hupper : ∀ i < 6, HexDigit (Char.ofNat (65 + i)) (10 + i) := by decide
    have hself {first : Nat} (hc : first ≤ c.toNat) :
        Char.ofNat (first + (c.toNat - first)) = c := by
      rw [Nat.add_sub_cancel' hc, Char.ofNat_toNat]
    simp only [Json.hexValue?, Char.isDigit, Bool.and_eq_true, decide_eq_true_eq, Char.le_def,
      UInt32.le_iff_toNat_le, ge_iff_le] at h
    split at h
    · rename_i hc
      change 48 ≤ c.toNat ∧ c.toNat ≤ 57 at hc
      cases h
      have hdigit := hdecimal (c.toNat - 48) (by omega)
      rwa [hself hc.1] at hdigit
    · split at h
      · rename_i hc
        change 97 ≤ c.toNat ∧ c.toNat ≤ 102 at hc
        cases h
        have hdigit := hlower (c.toNat - 97) (by omega)
        rwa [hself hc.1, show 10 + (c.toNat - 97) = c.toNat - 87 by omega] at hdigit
      · split at h
        · rename_i hc
          change 65 ≤ c.toNat ∧ c.toNat ≤ 70 at hc
          cases h
          have hdigit := hupper (c.toNat - 65) (by omega)
          rwa [hself hc.1, show 10 + (c.toNat - 65) = c.toNat - 55 by omega] at hdigit
        · cases h
  · have hall : ∀ v < 16, Json.hexValue? (Nat.digitChar v) = some v ∧
        Json.hexValue? (Nat.digitChar v).toUpper = some v := by decide
    rintro ⟨hlt, rfl | rfl⟩
    · exact (hall v hlt).1
    · exact (hall v hlt).2

/-- The value of a digit is one. -/
theorem HexDigit.unique {w : Nat} (hv : HexDigit c v) (hw : HexDigit c w) : v = w :=
  Option.some.inj ((hexValue?_eq_some_iff.2 hv).symm.trans (hexValue?_eq_some_iff.2 hw))

theorem HexDigit.ne (h : HexDigit c v) {d : Char} (hd : d.isAlphanum = false) : c ≠ d := by
  rintro rfl
  exact Bool.false_ne_true (hd.symm.trans h.isAlphanum)

/-- A plus counts as a digit zero. -/
def PlusOrDigit (c : Char) (v : Nat) : Prop := HexDigit c v ∨ c = '+' ∧ v = 0

namespace Rgb

/-! ## Colors -/

/-- The digits denote a color, when the first one of a channel can be as given. -/
inductive Denoted (First : Char → Nat → Prop) : List Char → Rgb → Prop
  /-- One digit for each channel, which stands for two. -/
  | short {a b c : Char} {r g u : Nat} : HexDigit a r → HexDigit b g → HexDigit c u →
      Denoted First [a, b, c] ⟨16 * r + r, 16 * g + g, 16 * u + u⟩
  /-- Two digits for each channel. -/
  | long {a a' b b' c c' : Char} {r r' g g' u u' : Nat} : First a r → HexDigit a' r' →
      First b g → HexDigit b' g' → First c u → HexDigit c' u' →
      Denoted First [a, a', b, b', c, c'] ⟨16 * r + r', 16 * g + g', 16 * u + u'⟩

/-- A text names the color that the characters behind its hash signs denote. -/
def Names (First : Char → Nat → Prop) (s : List Char) : Rgb → Prop :=
  Denoted First (s.dropWhile (· = '#'))

/-- **Only a plus makes a difference** in front of a digit. -/
theorem denoted_iff {ds : List Char} {color : Rgb} :
    Denoted HexDigit ds color ↔ Denoted PlusOrDigit ds color ∧ '+' ∉ ds := by
  have hplus {c : Char} {v : Nat} (h : HexDigit c v) : '+' ≠ c := (h.ne rfl).symm
  constructor
  · intro h
    cases h with
    | short ha hb hc =>
      exact ⟨.short ha hb hc, by simp [hplus ha, hplus hb, hplus hc]⟩
    | long ha ha' hb hb' hc hc' =>
      exact ⟨.long (.inl ha) ha' (.inl hb) hb' (.inl hc) hc',
        by simp [hplus ha, hplus ha', hplus hb, hplus hb', hplus hc, hplus hc']⟩
  · rintro ⟨h, hnone⟩
    have hdigit {c : Char} {v : Nat} (hc : c ∈ ds) (h : PlusOrDigit c v) : HexDigit c v := by
      rcases h with h | ⟨rfl, -⟩
      · exact h
      · exact absurd hc hnone
    cases h with
    | short ha hb hc => exact .short ha hb hc
    | long ha ha' hb hb' hc hc' =>
      exact .long (hdigit (by simp) ha) ha' (hdigit (by simp) hb) hb' (hdigit (by simp) hc) hc'

/-! ## Reading -/

/-- A channel is read from two digits, the first of which may be a plus. -/
theorem channel?_eq_some_iff {a b : Char} {n : Nat} :
    channel? a b = some n ↔ ∃ h l, PlusOrDigit a h ∧ HexDigit b l ∧ 16 * h + l = n := by
  have hfirst (h : Nat) :
      (if a = '+' then some 0 else Json.hexValue? a) = some h ↔ PlusOrDigit a h := by
    rw [PlusOrDigit, ← hexValue?_eq_some_iff]
    split
    · rename_i hplus
      subst hplus
      have hnone : Json.hexValue? '+' = none := by decide
      simp [hnone, eq_comm]
    · rename_i hplus
      simp [hplus]
  have hchannel : channel? a b = (if a = '+' then some 0 else Json.hexValue? a).bind fun high =>
      (Json.hexValue? b).bind fun low => some (16 * high + low) := by
    rw [channel?]
    split <;> rfl
  rw [hchannel]
  constructor
  · intro h
    obtain ⟨high, hhigh, h⟩ := Option.bind_eq_some_iff.1 h
    obtain ⟨low, hlow, h⟩ := Option.bind_eq_some_iff.1 h
    exact ⟨high, low, (hfirst high).1 hhigh, hexValue?_eq_some_iff.1 hlow, Option.some.inj h⟩
  · rintro ⟨high, low, hhigh, hlow, rfl⟩
    refine Option.bind_eq_some_iff.2 ⟨high, (hfirst high).2 hhigh, ?_⟩
    exact Option.bind_eq_some_iff.2 ⟨low, hexValue?_eq_some_iff.2 hlow, rfl⟩

/-- A digit that is doubled is no plus. -/
theorem channel?_self_eq_some_iff {a : Char} {n : Nat} :
    channel? a a = some n ↔ ∃ v, HexDigit a v ∧ 16 * v + v = n := by
  rw [channel?_eq_some_iff]
  constructor
  · rintro ⟨h, l, hfirst, hlast, hn⟩
    rcases hfirst with hfirst | ⟨rfl, -⟩
    · cases hfirst.unique hlast
      exact ⟨h, hfirst, hn⟩
    · exact absurd rfl (hlast.ne rfl)
  · rintro ⟨v, hv, hn⟩
    exact ⟨v, v, .inl hv, hv, hn⟩

/-- The color of the digits behind the hash signs. -/
def ofDigits? (ds : List Char) : Option Rgb :=
  match if ds.length = 3 then ds.flatMap fun d => [d, d] else ds with
  | [a, b, c, d, e, f] => do return ⟨← channel? a b, ← channel? c d, ← channel? e f⟩
  | _ => none

theorem parse?_eq (s : List Char) : parse? s = ofDigits? (s.dropWhile (· = '#')) := rfl

theorem channels_eq_some_iff {r g b : Option Nat} {color : Rgb} :
    (do return ⟨← r, ← g, ← b⟩ : Option Rgb) = some color ↔
      r = some color.red ∧ g = some color.green ∧ b = some color.blue := by
  obtain ⟨red, green, blue⟩ := color
  cases r <;> cases g <;> cases b <;> simp

/-- **What is read as a color** are three digits, or six characters with a digit or a plus in front
    of every second one. -/
theorem ofDigits?_eq_some_iff {ds : List Char} {color : Rgb} :
    ofDigits? ds = some color ↔ Denoted PlusOrDigit ds color := by
  constructor
  · intro h
    rw [ofDigits?] at h
    split at h
    · rename_i a b c d e f hds
      obtain ⟨hr, hg, hb⟩ := channels_eq_some_iff.1 h
      obtain ⟨red, green, blue⟩ := color
      split at hds
      · rename_i hlength
        obtain ⟨x, y, z, rfl⟩ := List.length_eq_three.1 hlength
        cases hds
        obtain ⟨_, hx, rfl⟩ := channel?_self_eq_some_iff.1 hr
        obtain ⟨_, hy, rfl⟩ := channel?_self_eq_some_iff.1 hg
        obtain ⟨_, hz, rfl⟩ := channel?_self_eq_some_iff.1 hb
        exact .short hx hy hz
      · subst hds
        obtain ⟨_, _, ha, hb', rfl⟩ := channel?_eq_some_iff.1 hr
        obtain ⟨_, _, hc, hd, rfl⟩ := channel?_eq_some_iff.1 hg
        obtain ⟨_, _, he, hf, rfl⟩ := channel?_eq_some_iff.1 hb
        exact .long ha hb' hc hd he hf
    · cases h
  · intro h
    cases h with
    | short ha hb hc =>
      exact channels_eq_some_iff.2 ⟨channel?_self_eq_some_iff.2 ⟨_, ha, rfl⟩,
        channel?_self_eq_some_iff.2 ⟨_, hb, rfl⟩, channel?_self_eq_some_iff.2 ⟨_, hc, rfl⟩⟩
    | long ha ha' hb hb' hc hc' =>
      exact channels_eq_some_iff.2 ⟨channel?_eq_some_iff.2 ⟨_, _, ha, ha', rfl⟩,
        channel?_eq_some_iff.2 ⟨_, _, hb, hb', rfl⟩, channel?_eq_some_iff.2 ⟨_, _, hc, hc', rfl⟩⟩

theorem parse?_eq_some_iff {s : List Char} {color : Rgb} :
    parse? s = some color ↔ Names PlusOrDigit s color := by
  rw [parse?_eq, ofDigits?_eq_some_iff, Names]

/-- **The colors** are the texts that are read and have no plus. -/
theorem names_iff {s : List Char} {color : Rgb} :
    Names HexDigit s color ↔ parse? s = some color ∧ '+' ∉ s := by
  have hplus : '+' ∈ s.dropWhile (· = '#') ↔ '+' ∈ s := by
    have hhashes : '+' ∉ s.takeWhile (· = '#') := fun h => by
      have := List.mem_takeWhile_imp h
      simp at this
    conv_rhs => rw [← List.takeWhile_append_dropWhile (p := (· = '#')) (l := s), List.mem_append]
    exact (or_iff_right hhashes).symm
  rw [Names, denoted_iff, parse?_eq_some_iff, Names, hplus]

theorem parse?_eq_none_iff {s : List Char} :
    parse? s = none ↔ ∀ color, ¬ Names PlusOrDigit s color := by
  simp only [Option.eq_none_iff_forall_ne_some, ne_eq, parse?_eq_some_iff]

/-! ## Writing -/

/-- A channel is written with two digits. -/
theorem channelText_eq {n : Nat} (hn : n < 256) :
    ∃ a b, channelText n = [a, b] ∧ HexDigit a (n / 16) ∧ HexDigit b (n % 16) :=
  ⟨_, _, rfl, ⟨by omega, .inl rfl⟩, ⟨by omega, .inl rfl⟩⟩

/-- **A color that is written** has six digits behind a hash sign. -/
theorem names_text {color : Rgb} (hr : color.red < 256) (hg : color.green < 256)
    (hb : color.blue < 256) : Names HexDigit color.text.toList color := by
  obtain ⟨r, r', hred, hr₁, hr₂⟩ := channelText_eq hr
  obtain ⟨g, g', hgreen, hg₁, hg₂⟩ := channelText_eq hg
  obtain ⟨b, b', hblue, hb₁, hb₂⟩ := channelText_eq hb
  have htext : color.text.toList = '#' :: [r, r', g, g', b, b'] := by
    rw [text, String.toList_ofList, hred, hgreen, hblue]
    rfl
  have hdigits : color.text.toList.dropWhile (· = '#') = [r, r', g, g', b, b'] := by
    have hfirst : r ≠ '#' := hr₁.ne rfl
    simp [htext, hfirst]
  have hcolor : color = ⟨16 * (color.red / 16) + color.red % 16,
      16 * (color.green / 16) + color.green % 16, 16 * (color.blue / 16) + color.blue % 16⟩ := by
    rw [Nat.div_add_mod, Nat.div_add_mod, Nat.div_add_mod]
  rw [Names, hdigits, hcolor]
  exact .long hr₁ hr₂ hg₁ hg₂ hb₁ hb₂

end Rgb

/-! ## Blending -/

/-- **A blended channel is in range**, whatever the opacity is. -/
theorem mixChannel_lt (opacity : Float) (top bottom : Nat) :
    mixChannel opacity top bottom < 256 := by
  rw [mixChannel]
  split
  · decide
  · rename_i hpositive
    split
    · decide
    · rename_i hbelow
      rw [Bool.or_eq_true, not_or, Bool.not_eq_true, Bool.not_eq_true] at hpositive
      exact (Decimal.toNat_toUInt64_lt hpositive.2 hbelow).trans (by decide)

theorem blendOver_of_none {base overlay : String} (opacity : Float)
    (h : Rgb.parse? base.toList = none ∨ Rgb.parse? overlay.toList = none) :
    blendOver base overlay opacity = base := by
  rw [blendOver]
  rcases h with h | h
  · rw [h]
  · rw [h]
    cases Rgb.parse? base.toList <;> rfl

/-- What is blended is a color. -/
theorem names_blendOver {base overlay : String} {b o : Rgb} (opacity : Float)
    (hbase : Rgb.parse? base.toList = some b) (hoverlay : Rgb.parse? overlay.toList = some o) :
    ∃ color, Rgb.Names HexDigit (blendOver base overlay opacity).toList color := by
  rw [blendOver, hbase, hoverlay]
  exact ⟨_, Rgb.names_text (mixChannel_lt ..) (mixChannel_lt ..) (mixChannel_lt ..)⟩

/-- **Colors are read and blended exactly.**  A text is read as a color if it has three or six
    digits behind its hash signs, or six characters in which a plus stands for the first digit of a
    channel; so the texts without a plus that are read are the colors.  If one of the two texts is
    not read, the base stays as it is, and otherwise the blended text is a color for every
    opacity. -/
theorem colors_exact (base overlay : String) (opacity : Float) :
    (∀ color, Rgb.parse? base.toList = some color ↔ Rgb.Names PlusOrDigit base.toList color) ∧
    (∀ color, Rgb.Names HexDigit base.toList color ↔
      Rgb.parse? base.toList = some color ∧ '+' ∉ base.toList) ∧
    ((∀ color, ¬ Rgb.Names PlusOrDigit base.toList color) ∨
        (∀ color, ¬ Rgb.Names PlusOrDigit overlay.toList color) →
      blendOver base overlay opacity = base) ∧
    ∀ b o, Rgb.Names PlusOrDigit base.toList b → Rgb.Names PlusOrDigit overlay.toList o →
      ∃ color, Rgb.parse? (blendOver base overlay opacity).toList = some color ∧
        Rgb.Names HexDigit (blendOver base overlay opacity).toList color := by
  refine ⟨fun color => Rgb.parse?_eq_some_iff, fun color => Rgb.names_iff, fun h => ?_,
    fun b o hb ho => ?_⟩
  · refine blendOver_of_none opacity (h.imp ?_ ?_)
    · exact Rgb.parse?_eq_none_iff.2
    · exact Rgb.parse?_eq_none_iff.2
  · obtain ⟨color, hcolor⟩ :=
      names_blendOver opacity (Rgb.parse?_eq_some_iff.2 hb) (Rgb.parse?_eq_some_iff.2 ho)
    exact ⟨color, (Rgb.names_iff.1 hcolor).1, hcolor⟩

/-- A short color under one with plus signs, and a base that is the name of a color. -/
theorem colors_exact_of_signs :
    Rgb.Names HexDigit "#fA0".toList ⟨255, 170, 0⟩ ∧
      blendOver "white" "#fA0" 0.5 = "white" ∧
      ∃ color, Rgb.parse? (blendOver "#fA0" "##+1+2+3" 0.5).toList = some color := by
  obtain ⟨hread, hcolor, -, hblend⟩ := colors_exact "#fA0" "##+1+2+3" 0.5
  obtain ⟨hwhite, -, hkept, -⟩ := colors_exact "white" "#fA0" 0.5
  have hbase : Rgb.parse? "#fA0".toList = some ⟨255, 170, 0⟩ := by decide
  have hoverlay : Rgb.Names PlusOrDigit "##+1+2+3".toList ⟨1, 2, 3⟩ :=
    ((colors_exact "##+1+2+3" "" 0.5).1 _).1 (by decide)
  have hnone : Rgb.parse? "white".toList = none := by decide
  refine ⟨(hcolor _).2 ⟨hbase, by decide⟩, hkept (.inl fun color h => ?_), ?_⟩
  · cases hnone.symm.trans ((hwhite color).2 h)
  · obtain ⟨color, hblended, -⟩ := hblend _ _ ((hread _).1 hbase) hoverlay
    exact ⟨color, hblended⟩

/-- **A text with plus signs is read**, although these are no digits, and does not stay as it is
    when a color is laid over it. -/
theorem signed_channels_are_read :
    Rgb.parse? "#+1+2+3".toList = some ⟨1, 2, 3⟩ ∧
      (∀ color, ¬ Rgb.Names HexDigit "#+1+2+3".toList color) ∧
      ∀ opacity, blendOver "#+1+2+3" "#000000" opacity ≠ "#+1+2+3" := by
  have hread : Rgb.parse? "#+1+2+3".toList = some ⟨1, 2, 3⟩ := by decide
  have hblack : Rgb.parse? "#000000".toList = some ⟨0, 0, 0⟩ := by decide
  have hnone (color : Rgb) : ¬ Rgb.Names HexDigit "#+1+2+3".toList color :=
    fun h => (Rgb.names_iff.1 h).2 (by decide)
  refine ⟨hread, hnone, fun opacity heq => ?_⟩
  obtain ⟨color, hcolor⟩ := names_blendOver opacity hread hblack
  rw [heq] at hcolor
  exact hnone color hcolor

end Letterpress.Markup
