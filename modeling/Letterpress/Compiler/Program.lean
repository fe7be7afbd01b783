/-
  Programs that read bytes and write bytes.

  * `Finished` is a run of a program that has ended; `Programs` gives the run of a program by its
    name, its arguments and its input, or says why there is none.
  * `Programs.standard` are the programs `cat`, `tr`, `echo`, `printf`, `true`, `false` and `sh`.
  * `Script` is the part of the shell language that `sh` understands: commands one after the other,
    with quoted words and with redirections to the other output or to nowhere.
-/
import Letterpress.Decimal.Reading
import Letterpress.Text.Pieces
import Letterpress.Text.Utf8

namespace Letterpress.Compiler

open Text

/-! ## Runs -/

/-- Bytes. -/
abbrev Bytes := List UInt8

/-- A run of a program that has ended. -/
structure Finished where
  status : Nat
  output : Bytes
  errors : Bytes

/-- The run of a program by its name, its arguments and its input, or the reason why it does not
    start. -/
abbrev Programs := String → List String → Bytes → Except String Finished

/-- A run without faults. -/
def succeeded (output : Bytes) : Finished := ⟨0, output, []⟩

/-! ## Simple programs -/

/-- The bytes of a set of characters, with ranges such as `a-z`. -/
def byteSet : List UInt8 → List UInt8
  | a :: 0x2D :: b :: rest =>
    ((List.range (b.toNat + 1 - a.toNat)).map fun i => UInt8.ofNat (a.toNat + i)) ++ byteSet rest
  | a :: rest => a :: byteSet rest
  | [] => []

/-- The bytes with those of one set replaced by those at the same places of another, whose last one
    stands for all further places. -/
def transliterate (source target : Bytes) (bytes : Bytes) : Bytes :=
  bytes.map fun b =>
    match source.reverse.idxOf? b with
    | some i => target.getD (source.length - 1 - i) (target.getLastD b)
    | none => b

/-- The value of up to `width` octal digits, and what follows them. -/
def readOctal (width value : Nat) : List Char → Nat × List Char
  | [] => (value, [])
  | c :: s =>
    match width with
    | 0 => (value, c :: s)
    | width + 1 =>
      if '0' ≤ c ∧ c ≤ '7' then readOctal width (8 * value + Decimal.digitValue c) s
      else (value, c :: s)

/-- The output of a format with its arguments; `fuel` bounds the number of characters. -/
def formatted : Nat → List Char → List String → Bytes
  | 0, _, _ | _, [], _ => []
  | fuel + 1, c :: s, args =>
    match c, s with
    | '\\', 'n' :: s => 10 :: formatted fuel s args
    | '\\', 't' :: s => 9 :: formatted fuel s args
    | '\\', '\\' :: s => 92 :: formatted fuel s args
    | '\\', d :: s =>
      if '0' ≤ d ∧ d ≤ '7' then
        let (value, rest) := readOctal 3 0 (d :: s)
        UInt8.ofNat value :: formatted fuel rest args
      else 92 :: formatted fuel (d :: s) args
    | '%', '%' :: s => 37 :: formatted fuel s args
    | '%', 's' :: s => encode (args.headD "") ++ formatted fuel s args.tail
    | c, s => encode (String.singleton c) ++ formatted fuel s args

/-- A run of a simple program and the input that it leaves. -/
def simple? (name : String) (args : List String) (input : Bytes) : Option (Finished × Bytes) :=
  match name, args with
  | "cat", [] => some (succeeded input, [])
  | "tr", [source, target] =>
    some (succeeded (transliterate (byteSet (encode source)) (byteSet (encode target)) input), [])
  | "echo", words => some (succeeded (encode (String.intercalate " " words ++ "\n")), input)
  | "printf", format :: args =>
    some (succeeded (formatted (format.length + 1) format.toList args), input)
  | "true", _ | ":", _ => some (succeeded [], input)
  | "false", _ => some (⟨1, [], []⟩, input)
  | _, _ => none

/-! ## Scripts -/

/-- Where output goes. -/
inductive Target where
  | output
  | errors
  | nowhere
deriving DecidableEq, Repr

/-- A command of a script. -/
structure ScriptCommand where
  words : List String
  output : Target
  errors : Target

/-- A part of a script. -/
inductive ScriptToken where
  | word (w : String)
  | separator
  | redirectOutput (t : Target)
  | redirectErrors (t : Target)

/-- The characters of a word; `fuel` bounds their number. -/
def readWord : Nat → List Char → List Char × List Char
  | 0, s => ([], s)
  | _, [] => ([], [])
  | fuel + 1, c :: s =>
    if c = '\'' then
      let (quoted, rest) := (splitOnce '\'' s).getD (s, [])
      let (more, rest) := readWord fuel rest
      (quoted ++ more, rest)
    else if c = '"' then
      let (quoted, rest) := (splitOnce '"' s).getD (s, [])
      let (more, rest) := readWord fuel rest
      (quoted ++ more, rest)
    else if c = ' ' || c = '\t' || c = '\n' || c = ';' || c = '>' then ([], c :: s)
    else
      let (more, rest) := readWord fuel s
      (c :: more, rest)

/-- The redirections by the way in which they are written. -/
def redirections : List (String × ScriptToken) :=
  [("2>/dev/null", .redirectErrors .nowhere), ("2>&1", .redirectErrors .output),
   (">/dev/null", .redirectOutput .nowhere), ("> /dev/null", .redirectOutput .nowhere),
   ("1>&2", .redirectOutput .errors), (">&2", .redirectOutput .errors)]

/-- The parts of a script; `fuel` bounds their number. -/
def scriptTokens : Nat → List Char → List ScriptToken
  | 0, _ | _, [] => []
  | fuel + 1, c :: s =>
    if c = ' ' || c = '\t' then scriptTokens fuel s
    else if c = ';' || c = '\n' then .separator :: scriptTokens fuel s
    else
      let redirection := redirections.findSome? fun (w, t) =>
        (afterStart? w.toList (c :: s)).map fun rest => (t, rest)
      match redirection with
      | some (t, rest) => t :: scriptTokens fuel rest
      | none =>
        let (w, rest) := readWord (s.length + 1) (c :: s)
        .word (String.ofList w) :: scriptTokens fuel rest

/-- The commands of a script, where `c` is the one that has been read in part. -/
def commandsFrom (c : ScriptCommand) : List ScriptToken → List ScriptCommand
  | [] => [c]
  | .word w :: ts => commandsFrom { c with words := c.words ++ [w] } ts
  | .separator :: ts => c :: commandsFrom ⟨[], .output, .errors⟩ ts
  | .redirectOutput t :: ts => commandsFrom { c with output := t } ts
  | .redirectErrors t :: ts => commandsFrom { c with errors := t } ts

/-- The commands of a script. -/
def commandsOf (script : String) : List ScriptCommand :=
  (commandsFrom ⟨[], .output, .errors⟩ (scriptTokens (script.length + 1) script.toList)).filter
    fun c => !c.words.isEmpty

/-- A run with more output. -/
def Finished.send (f : Finished) (target : Target) (bytes : Bytes) : Finished :=
  match target with
  | .output => { f with output := f.output ++ bytes }
  | .errors => { f with errors := f.errors ++ bytes }
  | .nowhere => f

/-- The commands one after the other, after the run `f` with the input that it has left. -/
def runCommands (f : Finished) (input : Bytes) : List ScriptCommand → Finished
  | [] => f
  | c :: rest =>
    match c.words with
    | "exit" :: args =>
      { f with status := ((args.head?.bind fun a => Decimal.index? 256 a.toList).getD f.status) }
    | name :: args =>
      match simple? name args input with
      | some (g, left) =>
        let f := (f.send c.output g.output).send c.errors g.errors
        runCommands { f with status := g.status } left rest
      | none =>
        let f := f.send c.errors (encode ("sh: 1: " ++ name ++ ": not found\n"))
        runCommands { f with status := 127 } input rest
    | [] => runCommands f input rest

/-! ## The programs -/

/-- The programs that are there. -/
def Programs.standard : Programs := fun name args input =>
  match name, args with
  | "sh", ["-c", script] => .ok (runCommands (succeeded []) input (commandsOf script))
  | name, args =>
    match simple? name args input with
    | some (f, _) => .ok f
    | none => .error "No such file or directory (os error 2)"

end Letterpress.Compiler
