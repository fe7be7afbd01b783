/-
  Text from bytes.

  * `readChar` reads the first character of a sequence of bytes in UTF-8.
  * `decode` reads all of them, or says where and how the bytes stop being UTF-8.
  * `decodeLossy` puts the replacement character in the place of what cannot be read.
-/

namespace Letterpress.Text

/-- The first character of a sequence of bytes. -/
inductive FirstChar where
  | char (c : Char) (rest : List UInt8)
  /-- The first `length` bytes cannot start any character. -/
  | invalid (length : Nat)
  /-- The bytes end inside a character. -/
  | incomplete

/-- The number of bytes that follow a first byte, and the least and the greatest second byte. -/
def leadByte? (b : Nat) : Option (Nat × Nat × Nat) :=
  if 0xC2 ≤ b ∧ b ≤ 0xDF then some (1, 0x80, 0xBF)
  else if b = 0xE0 then some (2, 0xA0, 0xBF)
  else if b = 0xED then some (2, 0x80, 0x9F)
  else if 0xE1 ≤ b ∧ b ≤ 0xEF then some (2, 0x80, 0xBF)
  else if b = 0xF0 then some (3, 0x90, 0xBF)
  else if 0xF1 ≤ b ∧ b ≤ 0xF3 then some (3, 0x80, 0xBF)
  else if b = 0xF4 then some (3, 0x80, 0x8F)
  else none

/-- The rest of a character, of which `read` bytes with the bits `value` are there; `low` and
    `high` bound the next byte. -/
def readTail (read value low high : Nat) : Nat → List UInt8 → FirstChar
  | 0, rest => .char (Char.ofNat value) rest
  | _ + 1, [] => .incomplete
  | left + 1, b :: rest =>
    if low ≤ b.toNat ∧ b.toNat ≤ high then
      readTail (read + 1) (value * 64 + b.toNat % 64) 0x80 0xBF left rest
    else .invalid read

/-- The first character of a sequence of bytes. -/
def readChar (first : UInt8) (rest : List UInt8) : FirstChar :=
  let b := first.toNat
  if b < 0x80 then .char (Char.ofNat b) rest
  else
    match leadByte? b with
    | some (left, low, high) =>
      readTail 1 (b % (if left = 1 then 32 else if left = 2 then 16 else 8)) low high left rest
    | none => .invalid 1

/-- Why bytes are no text. -/
inductive DecodeFault where
  | invalid (length index : Nat)
  | incomplete (index : Nat)
deriving DecidableEq, Repr

/-- The fault in words. -/
def DecodeFault.text : DecodeFault → String
  | .invalid length index =>
    "invalid utf-8 sequence of " ++ toString length ++ " bytes from index " ++ toString index
  | .incomplete index => "incomplete utf-8 byte sequence from index " ++ toString index

/-- The text of bytes after `index` others; `fuel` bounds the number of characters. -/
def decodeFrom (index : Nat) : Nat → List UInt8 → Except DecodeFault (List Char)
  | 0, _ | _, [] => .ok []
  | fuel + 1, b :: bytes =>
    match readChar b bytes with
    | .char c rest =>
      (decodeFrom (index + (bytes.length + 1 - rest.length)) fuel rest).map fun cs => c :: cs
    | .invalid length => .error (.invalid length index)
    | .incomplete => .error (.incomplete index)

/-- The text of bytes. -/
def decode (bytes : List UInt8) : Except DecodeFault String :=
  (decodeFrom 0 bytes.length bytes).map String.ofList

/-- The replacement character. -/
def replacement : Char := Char.ofNat 0xFFFD

/-- The characters of bytes, as far as they can be read; `fuel` bounds their number. -/
def decodeLossyFrom : Nat → List UInt8 → List Char
  | 0, _ | _, [] => []
  | fuel + 1, b :: bytes =>
    match readChar b bytes with
    | .char c rest => c :: decodeLossyFrom fuel rest
    | .invalid length => replacement :: decodeLossyFrom fuel (bytes.drop (length - 1))
    | .incomplete => [replacement]

/-- The text of bytes, as far as they can be read. -/
def decodeLossy (bytes : List UInt8) : String :=
  String.ofList (decodeLossyFrom bytes.length bytes)

/-- The bytes of a text. -/
def encode (s : String) : List UInt8 := s.toUTF8.toList

end Letterpress.Text
