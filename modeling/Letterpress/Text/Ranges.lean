/-
  Sets of characters as ascending lists of closed code point ranges.

  * `inRanges rs n` says whether the code point `n` lies in one of the ranges.
  * `Char.within` is the same question for a character.

  The tables of the Unicode properties (`Text.Blank`, `Text.Letter`) and of the case maps
  (`Text.Case`) are lists of this form.  They follow Unicode 17.
-/

namespace Letterpress.Text

/-- A closed range of code points. -/
abbrev Range := Nat × Nat

/-- The code point `n` lies in one of the ranges. -/
def inRanges (rs : List Range) (n : Nat) : Bool :=
  rs.any fun r => decide (r.1 ≤ n) && decide (n ≤ r.2)

/-- The character lies in one of the ranges. -/
def within (rs : List Range) (c : Char) : Bool := inRanges rs c.toNat

/-- The ranges are non-empty, ascending and apart. -/
def wellFormed : List Range → Bool
  | [] => true
  | [r] => decide (r.1 ≤ r.2)
  | r :: s :: rest => decide (r.1 ≤ r.2) && decide (r.2 + 1 < s.1) && wellFormed (s :: rest)

end Letterpress.Text
