/-
  Reducing rich text to a few harmless elements.

  * `sanitize` removes comments, then script elements, then style elements, each with its content,
    and then looks at the tags that are left, one after the other.
  * `RawTag` is a tag as it is written, `RawTag.kept` what stays of it: nothing if its element is
    not allowed or if it is not closed, and otherwise the tag with the attributes that are allowed
    for its element, in double quotes.
  * `RawAttribute` is an attribute as it is written.
-/
import Letterpress.Markup.Link
import Letterpress.Text.Letter
import Letterpress.Text.Pieces

namespace Letterpress.Markup

open Text

/-! ## What is allowed -/

/-- The elements that stay. -/
def allowedElements : List String :=
  ["p", "br", "strong", "b", "em", "i", "u", "a", "span", "ul", "ol", "li", "h1", "h2", "h3", "h4",
   "h5", "h6"]

/-- The attributes that stay on an element. -/
def allowedAttributes (element : String) : List String :=
  match element with
  | "a" => ["href", "target", "rel"]
  | "span" => ["style"]
  | _ => []

/-! ## Comments, scripts and styles -/

/-- A comment. -/
def readComment? : Reader Unit := fun s => do
  let s ← afterStart? ['<', '!', '-', '-'] s
  let (_, s) ← breakOn ['-', '-', '>'] s
  return ((), s)

/-- The character in lower case, where the long s counts as an s. -/
def foldCase (c : Char) : Char := if c = 'ſ' then 's' else c.toLower

/-- What follows the word `w` in `s`, in any case. -/
def afterWord? : List Char → List Char → Option (List Char)
  | [], s => some s
  | _ :: _, [] => none
  | w :: ws, c :: s => if w = foldCase c then afterWord? ws s else none

/-- A closing tag `</name  >`. -/
def readClosing? (name : List Char) : Reader Unit := fun s => do
  let s ← afterStart? ['<', '/'] s
  let s ← afterWord? name s
  let s ← afterStart? ['>'] (trimStart s)
  return ((), s)

/-- What follows the first closing tag. -/
def afterClosing? (name : List Char) : List Char → Option (List Char)
  | [] => none
  | c :: s =>
    match readClosing? name (c :: s) with
    | some (_, rest) => some rest
    | none => afterClosing? name s

/-- An element with its content: an opening tag, whose name ends there, up to the first closing
    tag after it. -/
def readElement? (name : List Char) : Reader Unit := fun s => do
  let s ← afterStart? ['<'] s
  let s ← afterWord? name s
  if (s.head?.map isWordChar).getD false then none
  let (_, s) ← splitOnce '>' s
  let s ← afterClosing? name s
  return ((), s)

/-- The text without the items of a reader. -/
def without (read? : Reader Unit) (s : List Char) : List Char :=
  substitute (fun _ => []) (pieces read? s)

/-! ## Attributes -/

/-- An attribute: its name, and its value if it has one. -/
structure RawAttribute where
  name : List Char
  value : Option (List Char)
deriving DecidableEq, Repr

/-- The first character of a name. -/
def isNameStart (c : Char) : Bool := c.isAlpha || c = '_' || c = ':'

/-- Another character of a name. -/
def isNameChar (c : Char) : Bool := c.isAlphanum || c = '-' || c = '_' || c = ':' || c = '.'

/-- A character of a value without quotes. -/
def isBareChar (c : Char) : Bool :=
  !(Text.isBlank c || c = '"' || c = '\'' || c = '=' || c = '<' || c = '>' || c.toNat = 0x60)

/-- A value in quotes, or one without that is not empty. -/
def readValue? : Reader (List Char)
  | '"' :: s => splitOnce '"' s
  | '\'' :: s => splitOnce '\'' s
  | s =>
    let (value, rest) := s.span isBareChar
    if value.isEmpty then none else some (value, rest)

/-- The value after a name: an equals sign and a value, with white space around the sign. -/
def readAssigned? : Reader (List Char) := fun s => do
  let s ← afterStart? ['='] (trimStart s)
  readValue? (trimStart s)

/-- An attribute at the start of the text. -/
def readAttribute? : Reader RawAttribute
  | [] => none
  | c :: s =>
    if isNameStart c then
      let (name, rest) := s.span isNameChar
      match readAssigned? rest with
      | some (value, rest) => some (⟨c :: name, some value⟩, rest)
      | none => some (⟨c :: name, none⟩, rest)
    else none

/-- The text with character references for its double quotes. -/
def hideQuotes (s : List Char) : List Char :=
  s.flatMap fun c => if c = '"' then "&quot;".toList else [c]

/-- What stays of an attribute of an element. -/
def RawAttribute.kept (element : String) (a : RawAttribute) : List Char :=
  let name := String.ofList (a.name.map Char.toLower)
  if (allowedAttributes element).contains name then
    let value := a.value.getD []
    let value := if name = "href" then (safeUrl (String.ofList value)).toList else value
    ' ' :: name.toList ++ ['=', '"'] ++ hideQuotes value ++ ['"']
  else []

/-! ## Tags -/

/-- A tag as it is written. -/
structure RawTag where
  /-- It starts with `</`. -/
  closing : Bool
  name : List Char
  /-- What stands between the name and the end. -/
  attributes : List Char
  /-- It ends with `>`, and not with the text. -/
  ended : Bool
deriving DecidableEq, Repr

/-- A tag at the start of the text. -/
def readTag? : Reader RawTag := fun s => do
  let s ← afterStart? ['<'] s
  let (closing, s) := match s with
    | '/' :: s => (true, s)
    | s => (false, s)
  let (name, s) := s.span Char.isAlphanum
  if !(name.head?.map Char.isAlpha).getD false then none
  match splitOnce '>' s with
  | some (attributes, rest) => return (⟨closing, name, attributes, true⟩, rest)
  | none => return (⟨closing, name, s, false⟩, [])

/-- What stays of a tag. -/
def RawTag.kept (t : RawTag) : List Char :=
  let name := String.ofList (t.name.map Char.toLower)
  if !t.ended || !allowedElements.contains name then []
  else if t.closing then ['<', '/'] ++ name.toList ++ ['>']
  else
    let attributes := (items (pieces readAttribute? t.attributes)).flatMap (·.kept name)
    let slash := if (trimEnd t.attributes).getLast? = some '/' then [' ', '/'] else []
    '<' :: name.toList ++ attributes ++ slash ++ ['>']

/-! ## The whole text -/

/-- The text without comments, scripts and styles. -/
def withoutHidden (s : List Char) : List Char :=
  without (readElement? "style".toList)
    (without (readElement? "script".toList) (without readComment? s))

/-- The text with nothing but allowed elements and attributes. -/
def sanitize (s : String) : String :=
  String.ofList (substitute RawTag.kept (pieces readTag? (withoutHidden s.toList)))

end Letterpress.Markup
