/-
  The tokens of JSON text.

  * `Token` is a bracket, a separator, a word, a number or a string.  A number too large for a
    double and a string with an unpaired surrogate escape are tokens without a value.
  * `tokens?` splits a text into its tokens, character by character (`Reading.step`); it fails on
    text that has no tokens at all.
  * `Number.ofText?` reads a number.

  A number is its digits as one integer below `2^64`, times a power of ten: integers of that size
  stay integers, others become doubles by one multiplication or division.
-/
import Letterpress.Decimal.Reading
import Letterpress.Json.Value

namespace Letterpress.Json

/-! ## Numbers -/

/-- The digits of a number as far as they fit below `2^64`, and how many were left out. -/
def significand : List Char → Nat → Nat × Nat
  | [], n => (n, 0)
  | c :: ds, n =>
    let next := 10 * n + Decimal.digitValue c
    if next < Decimal.wordBound then significand ds next else (n, ds.length + 1)

/-- `x * 10 ^ e`, by one multiplication or division; below `10 ^ -308` there is a division by
    `10 ^ 308` before.  The result is `none` if it is infinite. -/
def timesPowerOfTen (x : Float) (e : Int) : Option Float :=
  if x == 0.0 then some x
  else if 308 < e then none
  else if 0 ≤ e then
    let y := x * Float.ofScientific 1 false e.natAbs
    if y.isInf then none else some y
  else if -308 ≤ e then some (x / Float.ofScientific 1 false e.natAbs)
  else
    let y := x / 1e308
    if e < -616 then some 0.0 else some (y / Float.ofScientific 1 false (e + 308).natAbs)

/-- The value of a number with a fraction or an exponent, or of a large integer. -/
def real? (negative : Bool) (whole fraction : List Char) (exponent : Int) : Option Number :=
  let (n, wholeLeft) := significand whole 0
  let (n, fractionLeft) := significand fraction n
  let scale := (wholeLeft : Int) + fractionLeft - fraction.length + exponent
  (timesPowerOfTen (Float.ofNat n) scale).map fun x => .real (if negative then -x else x)

/-- A number as text: `none` if the text is no number, `some none` if it is out of range. -/
def Number.ofText? (s : List Char) : Option (Option Number) :=
  let (negative, body) := match s with
    | '-' :: rest => (true, rest)
    | _ => (false, s)
  let (whole, rest) := Decimal.digitRun body
  let (fraction, rest, pointed) := match rest with
    | '.' :: rest => let (f, rest) := Decimal.digitRun rest; (f, rest, true)
    | rest => ([], rest, false)
  if whole.isEmpty || (pointed && fraction.isEmpty) || (whole.head? == some '0' && 1 < whole.length)
  then none
  else
    match rest, pointed with
    | [], false =>
      let n := Decimal.natOf whole
      if negative then
        if n = 0 || Decimal.signedBound < n then some (real? true whole [] 0)
        else some (some (.integer (-(n : Int))))
      else if n < Decimal.wordBound then some (some (.integer n))
      else some (real? false whole [] 0)
    | _, _ => (Decimal.exponent? rest).map fun e => real? negative whole fraction e

/-! ## Tokens -/

/-- A token. -/
inductive Token where
  | openBracket
  | closeBracket
  | openBrace
  | closeBrace
  | comma
  | colon
  | word (b : Option Bool)
  | number (n : Option Number)
  | string (s : Option String)
deriving Repr

/-- What the reader is in the middle of.  Characters and tokens are kept last one first. -/
inductive Reading where
  | between
  /-- A word or a number. -/
  | run (chars : List Char)
  /-- A string; `sound` until an escape of an unpaired surrogate. -/
  | string (chars : List Char) (sound : Bool)
  /-- A string after a backslash. -/
  | escape (chars : List Char) (sound : Bool)
  /-- A string inside a `\u` escape, with the digits read so far. -/
  | unicode (chars : List Char) (sound : Bool) (digits value : Nat)
  /-- A string after the escape of a leading surrogate, which waits for the trailing one. -/
  | surrogate (chars : List Char) (lead : Nat)
  /-- The same after a backslash. -/
  | surrogateEscape (chars : List Char) (lead : Nat)
  /-- The same inside the second `\u` escape. -/
  | surrogateUnicode (chars : List Char) (lead digits value : Nat)

/-- The token of one character. -/
def punctuation? : Char → Option Token
  | '[' => some .openBracket
  | ']' => some .closeBracket
  | '{' => some .openBrace
  | '}' => some .closeBrace
  | ',' => some .comma
  | ':' => some .colon
  | _ => none

/-- The token of a run of letters, digits, signs and points. -/
def Token.ofRun? (chars : List Char) : Option Token :=
  match chars with
  | ['n', 'u', 'l', 'l'] => some (.word none)
  | ['t', 'r', 'u', 'e'] => some (.word (some true))
  | ['f', 'a', 'l', 's', 'e'] => some (.word (some false))
  | _ => (Number.ofText? chars).map .number

/-- The character of a one-letter escape. -/
def unescape? : Char → Option Char
  | '"' => some '"'
  | '\\' => some '\\'
  | '/' => some '/'
  | 'b' => some (Char.ofNat 0x8)
  | 'f' => some (Char.ofNat 0xC)
  | 'n' => some '\n'
  | 'r' => some '\r'
  | 't' => some '\t'
  | _ => none

/-- The value of a hexadecimal digit. -/
def hexValue? (c : Char) : Option Nat :=
  if c.isDigit then some (c.toNat - 48)
  else if 'a' ≤ c ∧ c ≤ 'f' then some (c.toNat - 87)
  else if 'A' ≤ c ∧ c ≤ 'F' then some (c.toNat - 55)
  else none

/-- The reading after a complete `\u` escape. -/
def afterUnicode (chars : List Char) (sound : Bool) (value : Nat) : Reading :=
  if 0xD800 ≤ value ∧ value < 0xDC00 then
    if sound then .surrogate chars value else .string chars false
  else if 0xDC00 ≤ value ∧ value < 0xE000 then .string chars false
  else .string (Char.ofNat value :: chars) sound

/-- One character outside of strings: the tokens that it completes and the reading after it. -/
def stepBetween (done : List Token) (c : Char) : Option (List Token × Reading) :=
  if c = ' ' || c = '\t' || c = '\n' || c = '\r' then some (done, .between)
  else if c = '"' then some (done, .string [] true)
  else
    match punctuation? c with
    | some t => some (t :: done, .between)
    | none =>
      if c.isAlphanum || c = '-' || c = '+' || c = '.' then some (done, .run [c]) else none

/-- One character inside a string. -/
def stepString (done : List Token) (chars : List Char) (sound : Bool) (c : Char) :
    Option (List Token × Reading) :=
  if c = '"' then
    some (.string (if sound then some (String.ofList chars.reverse) else none) :: done, .between)
  else if c = '\\' then some (done, .escape chars sound)
  else if c.toNat < 0x20 then none
  else some (done, .string (c :: chars) sound)

/-- One character of the text. -/
def Reading.step (done : List Token) : Reading → Char → Option (List Token × Reading)
  | .between, c => stepBetween done c
  | .run chars, c =>
    if c.isAlphanum || c = '-' || c = '+' || c = '.' then some (done, .run (c :: chars))
    else (Token.ofRun? chars.reverse).bind fun t => stepBetween (t :: done) c
  | .string chars sound, c => stepString done chars sound c
  | .escape chars sound, c =>
    if c = 'u' then some (done, .unicode chars sound 0 0)
    else (unescape? c).map fun e => (done, .string (e :: chars) sound)
  | .unicode chars sound digits value, c =>
    (hexValue? c).map fun h =>
      if digits = 3 then (done, afterUnicode chars sound (16 * value + h))
      else (done, .unicode chars sound (digits + 1) (16 * value + h))
  | .surrogate chars lead, c =>
    if c = '\\' then some (done, .surrogateEscape chars lead)
    else stepString done chars false c
  | .surrogateEscape chars lead, c =>
    if c = 'u' then some (done, .surrogateUnicode chars lead 0 0)
    else (unescape? c).map fun e => (done, .string (e :: chars) false)
  | .surrogateUnicode chars lead digits value, c =>
    (hexValue? c).map fun h =>
      let value := 16 * value + h
      if digits = 3 then
        if 0xDC00 ≤ value ∧ value < 0xE000 then
          let c := Char.ofNat (0x10000 + (lead - 0xD800) * 0x400 + (value - 0xDC00))
          (done, .string (c :: chars) true)
        else (done, .string chars false)
      else (done, .surrogateUnicode chars lead (digits + 1) value)

/-- The tokens of the rest of a text, after those already read. -/
def tokensFrom (done : List Token) (reading : Reading) : List Char → Option (List Token)
  | [] =>
    match reading with
    | .between => some done.reverse
    | .run chars => (Token.ofRun? chars.reverse).map fun t => (t :: done).reverse
    | _ => none
  | c :: rest =>
    match reading.step done c with
    | none => none
    | some (done, reading) => tokensFrom done reading rest

/-- The tokens of a text. -/
def tokens? (s : String) : Option (List Token) := tokensFrom [] .between s.toList

end Letterpress.Json
