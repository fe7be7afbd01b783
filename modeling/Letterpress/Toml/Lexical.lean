/-
  The words of TOML.

  * `skipBlank` skips white space, `skipLines?` also comments and line ends, `endOfLine?` the rest
    of a line after a statement.
  * `readString?` reads the four forms of strings: basic and literal, on one line or on several.
  * `readKey?` reads a key: bare words and strings joined by dots.
-/
import Letterpress.Json.Token
import Letterpress.Text.Pieces

namespace Letterpress.Toml

open Text

/-! ## Space -/

/-- White space within a line. -/
def isSpace (c : Char) : Bool := c = ' ' || c = '\t'

/-- The text after white space. -/
def skipBlank (s : List Char) : List Char := s.dropWhile isSpace

/-- A control character that may not stand in comments and strings. -/
def isControl (c : Char) : Bool := (c.toNat < 0x20 && c ≠ '\t') || c.toNat = 0x7F

/-- The text after a line end. -/
def afterNewline? : List Char → Option (List Char)
  | '\n' :: s => some s
  | '\r' :: '\n' :: s => some s
  | _ => none

/-- The text after a comment, if one starts here. -/
def skipComment (s : List Char) : List Char :=
  match s with
  | '#' :: s => s.dropWhile fun c => !isControl c
  | s => s

/-- The text after white space, comments and line ends; `fuel` bounds the number of lines. -/
def skipLinesUpTo : Nat → List Char → List Char
  | 0, s => s
  | fuel + 1, s =>
    let s := skipComment (skipBlank s)
    match afterNewline? s with
    | some s => skipLinesUpTo fuel s
    | none => s

/-- The text after white space, comments and line ends. -/
def skipLines (s : List Char) : List Char := skipLinesUpTo (s.length + 1) s

/-- The text after the rest of a line without content. -/
def endOfLine? (s : List Char) : Option (List Char) :=
  match skipComment (skipBlank s) with
  | [] => some []
  | s => afterNewline? s

/-! ## Strings -/

/-- A character by a number of hexadecimal digits. -/
def readCode? (width : Nat) : Reader Char := fun s => do
  let ds := s.take width
  if ds.length < width then none
  let n ← ds.foldlM (fun n c => (Json.hexValue? c).map fun h => 16 * n + h) 0
  if n.isValidChar then some (Char.ofNat n, s.drop width) else none

/-- The character of an escape, after the backslash. -/
def readEscape? : Reader Char
  | 'b' :: s => some (Char.ofNat 0x8, s)
  | 't' :: s => some ('\t', s)
  | 'n' :: s => some ('\n', s)
  | 'f' :: s => some (Char.ofNat 0xC, s)
  | 'r' :: s => some ('\r', s)
  | 'e' :: s => some (Char.ofNat 0x1B, s)
  | '"' :: s => some ('"', s)
  | '\\' :: s => some ('\\', s)
  | 'x' :: s => readCode? 2 s
  | 'u' :: s => readCode? 4 s
  | 'U' :: s => readCode? 8 s
  | _ => none

/-- The characters of a basic string up to its end; `fuel` bounds their number. -/
def readBasic? : Nat → Reader (List Char)
  | 0, _ | _, [] => none
  | fuel + 1, c :: s =>
    if c = '"' then some ([], s)
    else if c = '\\' then do
      let (e, s) ← readEscape? s
      let (cs, s) ← readBasic? fuel s
      return (e :: cs, s)
    else if isControl c then none
    else (readBasic? fuel s).map fun (cs, s) => (c :: cs, s)

/-- The characters of a literal string up to its end. -/
def readLiteral? (s : List Char) : Option (List Char × List Char) := do
  let (cs, s) ← splitOnce '\'' s
  if cs.any isControl then none else some (cs, s)

/-- The end of a string on several lines: three quotes, and up to two more that belong to it. -/
def readLongEnd? (quote : Char) : Reader (List Char) := fun s => do
  let s ← afterStart? [quote, quote, quote] s
  match s with
  | a :: b :: rest =>
    if a = quote && b = quote then some ([quote, quote], rest)
    else if a = quote then some ([quote], b :: rest)
    else some ([], s)
  | [a] => if a = quote then some ([quote], []) else some ([], s)
  | [] => some ([], [])

/-- The text after white space and line ends; `fuel` bounds the number of lines. -/
def skipEmptyLinesUpTo : Nat → List Char → List Char
  | 0, s => s
  | fuel + 1, s =>
    match afterNewline? (skipBlank s) with
    | some s => skipEmptyLinesUpTo fuel s
    | none => skipBlank s

/-- The text after a backslash at the end of a line: the next content, if there is a line end
    before it. -/
def skipContinued? (s : List Char) : Option (List Char) :=
  (afterNewline? (skipBlank s)).map fun s => skipEmptyLinesUpTo (s.length + 1) s

/-- The characters of a string on several lines up to its end; `fuel` bounds their number. -/
def readLong? (quote : Char) : Nat → Reader (List Char)
  | 0, _ => none
  | fuel + 1, s =>
    match readLongEnd? quote s, s with
    | some done, _ => some done
    | none, [] => none
    | none, c :: s =>
      if c = '\\' && quote = '"' then
        match skipContinued? s with
        | some s => readLong? quote fuel s
        | none => do
          let (e, s) ← readEscape? s
          let (cs, s) ← readLong? quote fuel s
          return (e :: cs, s)
      else if isControl c && (afterNewline? (c :: s)).isNone then none
      else (readLong? quote fuel s).map fun (cs, s) => (c :: cs, s)

/-- A string on several lines after its opening quotes; a line end right after them is left out. -/
def readLongBody? (quote : Char) (s : List Char) : Option (List Char × List Char) :=
  let s := (afterNewline? s).getD s
  readLong? quote (s.length + 1) s

/-- A string. -/
def readString? : Reader String := fun s =>
  let found := match s with
    | '"' :: '"' :: '"' :: s => readLongBody? '"' s
    | '\'' :: '\'' :: '\'' :: s => readLongBody? '\'' s
    | '"' :: s => readBasic? (s.length + 1) s
    | '\'' :: s => readLiteral? s
    | _ => none
  found.map fun (cs, s) => (String.ofList cs, s)

/-! ## Keys -/

/-- A character of a bare key. -/
def isBareKeyChar (c : Char) : Bool := c.isAlphanum || c = '-' || c = '_'

/-- A part of a key: a bare word, or a string on one line. -/
def readKeyPart? : Reader String := fun s =>
  match s with
  | '"' :: s => (readBasic? (s.length + 1) s).map fun (cs, s) => (String.ofList cs, s)
  | '\'' :: s => (readLiteral? s).map fun (cs, s) => (String.ofList cs, s)
  | s =>
    let (word, rest) := s.span isBareKeyChar
    if word.isEmpty then none else some (String.ofList word, rest)

/-- The parts of a key, with white space around the dots; `fuel` bounds their number. -/
def readKeyUpTo? : Nat → Reader (List String)
  | 0, _ => none
  | fuel + 1, s => do
    let (part, s) ← readKeyPart? (skipBlank s)
    match skipBlank s with
    | '.' :: s => (readKeyUpTo? fuel s).map fun (parts, s) => (part :: parts, s)
    | s => some ([part], s)

/-- The largest number of parts of a key. -/
def longestKey : Nat := 81

/-- A key, with the white space around it. -/
def readKey? : Reader (List String) := readKeyUpTo? longestKey

end Letterpress.Toml
