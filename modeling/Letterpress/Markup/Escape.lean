/-
  Text inside markup.

  * `escapeText` replaces the five characters that have a meaning in element text or in attributes
    by character references, `escapeAttribute` those four that have one between double quotes.
-/

namespace Letterpress.Markup

/-- A character between double quotes. -/
def escapeAttributeChar (c : Char) : List Char :=
  if c = '&' then "&amp;".toList
  else if c = '<' then "&lt;".toList
  else if c = '>' then "&gt;".toList
  else if c = '"' then "&quot;".toList
  else [c]

/-- A character in element text or in an attribute. -/
def escapeTextChar (c : Char) : List Char :=
  if c = '\'' then "&#x27;".toList else escapeAttributeChar c

/-- The text as the value of an attribute between double quotes. -/
def escapeAttribute (s : List Char) : List Char := s.flatMap escapeAttributeChar

/-- The text as element text. -/
def escapeText (s : List Char) : List Char := s.flatMap escapeTextChar

end Letterpress.Markup
