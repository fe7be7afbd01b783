/-
  White space and trimming.

  * `isBlank` is the Unicode property White_Space: 25 characters, of which six are ASCII.
  * `trimStart`, `trimEnd` and `trim` drop blank characters from the ends of a text.
  * `trimStartOf`, `trimEndOf` drop a given character instead.

  The functions work on lists of characters; `String.trimBlank` is the one for strings.
-/
import Letterpress.Text.Ranges

namespace Letterpress.Text

/-! ## The property -/

/-- The characters with the property White_Space. -/
def blankRanges : List Range :=
  [(0x9, 0xD), (0x20, 0x20), (0x85, 0x85), (0xA0, 0xA0), (0x1680, 0x1680), (0x2000, 0x200A),
   (0x2028, 0x2029), (0x202F, 0x202F), (0x205F, 0x205F), (0x3000, 0x3000)]

/-- A white space character. -/
def isBlank (c : Char) : Bool := within blankRanges c

/-! ## Trimming -/

/-- The list without the longest initial part that satisfies `p`. -/
def trimStartOf (p : Char → Bool) (cs : List Char) : List Char := cs.dropWhile p

/-- The list without the longest final part that satisfies `p`. -/
def trimEndOf (p : Char → Bool) (cs : List Char) : List Char := (cs.reverse.dropWhile p).reverse

/-- The list without blank characters at its start. -/
def trimStart (cs : List Char) : List Char := trimStartOf isBlank cs

/-- The list without blank characters at its end. -/
def trimEnd (cs : List Char) : List Char := trimEndOf isBlank cs

/-- The list without blank characters at its ends. -/
def trim (cs : List Char) : List Char := trimEnd (trimStart cs)

/-- The string without blank characters at its ends. -/
def trimText (s : String) : String := String.ofList (trim s.toList)

end Letterpress.Text
