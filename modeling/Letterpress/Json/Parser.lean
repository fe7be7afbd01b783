/-
  Reading JSON text.

  * `Written` is a text as it is written: the members of an object in their order with repetitions,
    numbers out of range and strings with an unpaired surrogate as leaves without a value.
  * `Written.ofTokens?` builds it from the tokens, one at a time, with the open arrays and objects
    on a stack (`Build.step`).
  * `Written.value?` is the value of a text: keys in order, the last of repeated keys, at most
    127 levels deep, no leaf without a value.
  * `Shape` says which fields of a record are looked at.  `Written.read?` gives the value of those
    alone, in the order of the text, so that a record with a repeated field can be refused; what
    stands in other fields does not matter.
  * `parse?` and `readAs?` are these two from the text.
-/
import Letterpress.Json.Token

namespace Letterpress.Json

/-! ## The text as written -/

/-- A JSON text as it is written. -/
inductive Written where
  | null
  | bool (b : Bool)
  | number (n : Option Number)
  | string (s : Option String)
  | array (items : List Written)
  | object (members : List (Option String × Written))

/-- An array or object that is still open; its items so far, last one first. -/
inductive Frame where
  | array (items : List Written)
  /-- With the key whose value is due. -/
  | object (members : List (Option String × Written)) (key : Option String)

/-- What may come next. -/
inductive Expect where
  | value
  /-- After `[`: a value or the end. -/
  | itemOrEnd
  /-- After `{`: a key or the end. -/
  | keyOrEnd
  | key
  | colon
  /-- After a value inside a container: a comma or the end. -/
  | commaOrEnd
  | nothing

/-- A text that has been read in part. -/
structure Build where
  stack : List Frame
  expect : Expect
  result : Option Written

/-- A complete value takes its place in the innermost open container. -/
def Build.put (stack : List Frame) (v : Written) : Build :=
  match stack with
  | [] => ⟨[], .nothing, some v⟩
  | .array items :: rest => ⟨.array (v :: items) :: rest, .commaOrEnd, none⟩
  | .object members key :: rest => ⟨.object ((key, v) :: members) none :: rest, .commaOrEnd, none⟩

/-- The first token of a value. -/
def Build.start (stack : List Frame) : Token → Option Build
  | .openBracket => some ⟨.array [] :: stack, .itemOrEnd, none⟩
  | .openBrace => some ⟨.object [] none :: stack, .keyOrEnd, none⟩
  | .word none => some (put stack .null)
  | .word (some b) => some (put stack (.bool b))
  | .number n => some (put stack (.number n))
  | .string s => some (put stack (.string s))
  | _ => none

/-- The end of the innermost open container. -/
def Build.close (stack : List Frame) : Token → Option Build
  | .closeBracket =>
    match stack with
    | .array items :: rest => some (put rest (.array items.reverse))
    | _ => none
  | .closeBrace =>
    match stack with
    | .object members _ :: rest => some (put rest (.object members.reverse))
    | _ => none
  | _ => none

/-- A key of the innermost open object. -/
def Build.takeKey (stack : List Frame) : Token → Option Build
  | .string s =>
    match stack with
    | .object members _ :: rest => some ⟨.object members s :: rest, .colon, none⟩
    | _ => none
  | _ => none

/-- One token. -/
def Build.step (b : Build) (t : Token) : Option Build :=
  match b.expect with
  | .value => start b.stack t
  | .itemOrEnd =>
    match t with
    | .closeBracket => close b.stack t
    | _ => start b.stack t
  | .keyOrEnd =>
    match t with
    | .closeBrace => close b.stack t
    | _ => takeKey b.stack t
  | .key => takeKey b.stack t
  | .colon =>
    match t with
    | .colon => some { b with expect := .value }
    | _ => none
  | .commaOrEnd =>
    match t, b.stack with
    | .comma, .array _ :: _ => some { b with expect := .value }
    | .comma, .object _ _ :: _ => some { b with expect := .key }
    | _, _ => close b.stack t
  | .nothing => none

/-- The text of a token list, if it is one complete value. -/
def Written.ofTokens? (ts : List Token) : Option Written :=
  (ts.foldlM Build.step ⟨[], .value, none⟩).bind (·.result)

/-! ## Values -/

/-- The number of levels that arrays and objects may be nested. -/
def maxDepth : Nat := 127

mutual

/-- The value of a text at most `depth` levels deep. -/
def Written.value? (depth : Nat) : Written → Option Json
  | .null => some .null
  | .bool b => some (.bool b)
  | .number n => n.map .number
  | .string s => s.map .string
  | .array items => if depth = 0 then none else (itemValues? (depth - 1) items).map .array
  | .object ms =>
    if depth = 0 then none
    else (memberValues? (depth - 1) ms).map fun ms => .object (Dict.ofPairs ms)

/-- The values of the items. -/
def Written.itemValues? (depth : Nat) : List Written → Option (List Json)
  | [] => some []
  | w :: ws => do
    let v ← w.value? depth
    let vs ← itemValues? depth ws
    return v :: vs

/-- The values of the members, as they are written. -/
def Written.memberValues? (depth : Nat) :
    List (Option String × Written) → Option (List (String × Json))
  | [] => some []
  | (k, w) :: ws => do
    let k ← k
    let v ← w.value? depth
    let vs ← memberValues? depth ws
    return (k, v) :: vs

end

/-! ## Records -/

/-- The parts of a text that are looked at. -/
inductive Shape where
  /-- Everything. -/
  | any
  /-- The fields of a record, by name or, in an array, by position. -/
  | record (fields : List (String × Shape))
  /-- The items of an array. -/
  | list (items : Shape)

mutual

/-- The value of the parts of a text that are looked at, at most `depth` levels deep.  The fields
    of a record keep their order and their repetitions. -/
def Written.read? (depth : Nat) : Shape → Written → Option Json
  | .record fields, .object ms =>
    if depth = 0 then none else (readFields? (depth - 1) fields ms).map .object
  | .record fields, .array items =>
    if depth = 0 then none else (readPositions? (depth - 1) (fields.map (·.2)) items).map .array
  | .list shape, .array items =>
    if depth = 0 then none else (readItems? (depth - 1) shape items).map .array
  | _, w => w.value? depth

/-- The known fields among the members. -/
def Written.readFields? (depth : Nat) (fields : List (String × Shape)) :
    List (Option String × Written) → Option (List (String × Json))
  | [] => some []
  | (k, w) :: ws => do
    let k ← k
    match fields.lookup k with
    | none => readFields? depth fields ws
    | some shape => do
      let v ← w.read? depth shape
      let vs ← readFields? depth fields ws
      return (k, v) :: vs

/-- The fields of a record by position. -/
def Written.readPositions? (depth : Nat) (shapes : List Shape) : List Written → Option (List Json)
  | [] => some []
  | w :: ws => do
    let v ← w.read? depth (shapes.headD .any)
    let vs ← readPositions? depth shapes.tail ws
    return v :: vs

/-- The items of an array. -/
def Written.readItems? (depth : Nat) (shape : Shape) : List Written → Option (List Json)
  | [] => some []
  | w :: ws => do
    let v ← w.read? depth shape
    let vs ← readItems? depth shape ws
    return v :: vs

end

/-! ## From the text -/

/-- The value of a JSON text. -/
def parse? (s : String) : Option Json :=
  ((tokens? s).bind Written.ofTokens?).bind fun w => w.value? maxDepth

/-- The parts of a JSON text that `shape` looks at. -/
def readAs? (shape : Shape) (s : String) : Option Json :=
  ((tokens? s).bind Written.ofTokens?).bind fun w => w.read? maxDepth shape

end Letterpress.Json
