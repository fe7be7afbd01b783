/-
  The attributes of an element.

  * `Attributes` is a list of names with values, in the order in which they are written.
  * `Attributes.text` writes them, escaped, without those whose value is empty.
  * `element` writes an element with its content, `emptyElement` one without.
-/
import Letterpress.Markup.Escape

namespace Letterpress.Markup

/-- Attributes in order. -/
abbrev Attributes := List (String × String)

namespace Attributes

/-- An attribute, if it has a value. -/
def given (name : String) (value : Option String) : Attributes := value.elim [] fun v => [(name, v)]

/-- One attribute. -/
def attributeText (name value : String) : List Char :=
  ' ' :: name.toList ++ ['=', '"'] ++ escapeAttribute value.toList ++ ['"']

/-- The attributes that have a value. -/
def written (as : Attributes) : Attributes := as.filter fun a => !a.2.isEmpty

/-- The text of the attributes, each after a space. -/
def text (as : Attributes) : String :=
  String.ofList (as.written.flatMap fun a => attributeText a.1 a.2)

end Attributes

/-- An element with content. -/
def element (name : String) (attributes : Attributes) (content : String) : String :=
  "<" ++ name ++ attributes.text ++ ">" ++ content ++ "</" ++ name ++ ">"

/-- An element without content. -/
def emptyElement (name : String) (attributes : Attributes) : String :=
  "<" ++ name ++ attributes.text ++ " />"

end Letterpress.Markup
