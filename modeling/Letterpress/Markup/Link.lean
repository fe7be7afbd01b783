/-
  Link targets.

  * `isSafeUrl` refuses the schemes that run code or embed content, in any ASCII case and after
    white space.
  * `safeUrl` puts `#` in the place of a refused target.
-/
import Letterpress.Text.Blank
import Letterpress.Text.Scan

namespace Letterpress.Markup

open Text

/-- The schemes that are refused. -/
def refusedSchemes : List String := ["javascript:", "data:", "vbscript:"]

/-- The target has none of the refused schemes. -/
def isSafeUrl (url : String) : Bool :=
  let start := (trim url.toList).map Char.toLower
  refusedSchemes.all fun scheme => (afterStart? scheme.toList start).isNone

/-- The target, or `#` if it is refused. -/
def safeUrl (url : String) : String := if isSafeUrl url then url else "#"

end Letterpress.Markup
