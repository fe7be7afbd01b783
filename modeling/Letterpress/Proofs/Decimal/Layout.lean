/-
  The characters in the text of a number.

  * `isNumberChar_render`: in every format, a number is written with letters, digits, points and
    signs alone, so that it means the same in markup and in other texts.
  * `render_ne_empty`: every number is written with some character.
-/
import Letterpress.Decimal.Layout

namespace Letterpress.Decimal

/-! ## Only some characters -/

/-- A character of the text of a number. -/
def isNumberChar (c : Char) : Bool := c.isAlphanum || c = '.' || c = '-' || c = '+'

theorem isNumberChar_of_isDigit {c : Char} (h : c.isDigit = true) : isNumberChar c = true := by
  simp [isNumberChar, Char.isAlphanum, h]

theorem isNumberChar_digitsOf {n : Nat} : ∀ c ∈ digitsOf n, isNumberChar c = true :=
  fun _ hc => isNumberChar_of_isDigit (Nat.isDigit_of_mem_toDigits (by decide) (by decide) hc)

theorem isNumberChar_zeros {n : Nat} : ∀ c ∈ List.replicate n '0', isNumberChar c = true := by
  intro c hc
  rw [List.eq_of_mem_replicate hc]
  decide

theorem isNumberChar_withPoint {places n : Nat} :
    ∀ c ∈ withPoint places n, isNumberChar c = true := by
  have hpadded : ∀ width, ∀ c ∈ padded width n, isNumberChar c = true := fun width =>
    List.forall_mem_append.2 ⟨isNumberChar_zeros, isNumberChar_digitsOf⟩
  rw [withPoint]
  split
  · exact isNumberChar_digitsOf
  · simp only [List.forall_mem_append, List.forall_mem_cons]
    refine ⟨fun c hc => ?_, by decide, fun c hc => ?_⟩
    · exact hpadded _ c (List.mem_of_mem_take hc)
    · exact hpadded _ c (List.mem_of_mem_drop hc)

theorem Digits.isNumberChar_positionally {pointZero : Bool} {d : Digits} :
    ∀ c ∈ d.positionally pointZero, isNumberChar c = true := by
  rw [positionally]
  split
  · simp only [List.forall_mem_append]
    refine ⟨⟨isNumberChar_digitsOf, isNumberChar_zeros⟩, ?_⟩
    cases pointZero <;> exact List.all_eq_true.1 (by decide)
  · exact isNumberChar_withPoint

theorem Digits.isNumberChar_scientifically {d : Digits} :
    ∀ c ∈ d.scientifically, isNumberChar c = true := by
  have hdigits : ∀ c ∈ digitsOf d.digits, isNumberChar c = true := isNumberChar_digitsOf
  rw [scientifically]
  simp only [List.forall_mem_append, List.forall_mem_cons]
  refine ⟨⟨fun c hc => hdigits c (List.mem_of_mem_take hc), ?_⟩, by decide, ?_,
    isNumberChar_digitsOf⟩
  · split
    · simp
    · simp only [List.forall_mem_cons]
      exact ⟨by decide, fun c hc => hdigits c (List.mem_of_mem_drop hc)⟩
  · split <;> decide

theorem Layout.isNumberChar_digits {l : Layout} {d : Digits} :
    ∀ c ∈ l.digits d, isNumberChar c = true := by
  rw [digits]
  split
  · exact Digits.isNumberChar_positionally
  · split
    · exact Digits.isNumberChar_positionally
    · exact Digits.isNumberChar_scientifically

/-- **A number is written with letters, digits, points and signs alone.** -/
theorem Layout.isNumberChar_render {l : Layout} {x : Float} :
    ∀ c ∈ (l.render x).toList, isNumberChar c = true := by
  rw [render]
  split
  · exact List.all_eq_true.1 (by decide)
  · have hsign : ∀ c ∈ if isNegative x then ['-'] else [], isNumberChar c = true := by
      split <;> exact List.all_eq_true.1 (by decide)
    dsimp only
    split
    · simp only [String.toList_ofList, List.forall_mem_append]
      exact ⟨hsign, List.all_eq_true.1 (by decide)⟩
    · simp only [String.toList_ofList, List.forall_mem_append]
      exact ⟨hsign, isNumberChar_digits⟩

/-! ## Never none -/

theorem digitsOf_ne_nil {n : Nat} : digitsOf n ≠ [] := Nat.toDigits_ne_nil

theorem withPoint_ne_nil {places n : Nat} : withPoint places n ≠ [] := by
  rw [withPoint]
  split
  · exact digitsOf_ne_nil
  · simp

theorem Layout.digits_ne_nil {l : Layout} {d : Digits} : l.digits d ≠ [] := by
  have hpositionally : d.positionally l.pointZero ≠ [] := by
    rw [Digits.positionally]
    split
    · simp [digitsOf_ne_nil]
    · exact withPoint_ne_nil
  have hscientifically : d.scientifically ≠ [] := by simp [Digits.scientifically]
  rw [digits]
  split
  · exact hpositionally
  · split
    · exact hpositionally
    · exact hscientifically

/-- **No number is written as nothing.** -/
theorem Layout.render_ne_empty {l : Layout} {x : Float} : l.render x ≠ "" := by
  rw [render, ne_eq, ← String.toList_eq_nil_iff]
  split
  · decide
  · dsimp only
    split
    · simp
    · simp [digits_ne_nil]

end Letterpress.Decimal
