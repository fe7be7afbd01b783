/-
  Finding items in a text.

  * A `Reader α` reads one item at the start of a text and gives the rest.
  * `pieces read? s` cuts `s` from the left into items and the characters between them: where an
    item can be read it is taken, and the search goes on after it.
  * `substitute` puts a text in place of every item, `items` lists them, and `located` lists them
    with their byte offsets.
-/
import Letterpress.Text.Scan

namespace Letterpress.Text

variable {α : Type}

/-! ## Cutting -/

/-- Reads an item at the start of a text and gives the rest. -/
abbrev Reader (α : Type) := List Char → Option (α × List Char)

/-- A part of a text: an item, or a character outside of all items. -/
inductive Piece (α : Type) where
  | char (c : Char)
  | item (a : α)
deriving Repr

/-- The pieces of a text after its first `skip` characters. -/
def piecesAfter (read? : Reader α) : Nat → List Char → List (Piece α)
  | _, [] => []
  | skip + 1, _ :: s => piecesAfter read? skip s
  | 0, c :: s =>
    match read? (c :: s) with
    | some (a, rest) => .item a :: piecesAfter read? (s.length - rest.length) s
    | none => .char c :: piecesAfter read? 0 s

/-- The pieces of a text. -/
def pieces (read? : Reader α) (s : List Char) : List (Piece α) := piecesAfter read? 0 s

/-! ## Using the pieces -/

/-- The text with `f a` in place of every item `a`. -/
def substitute (f : α → List Char) (ps : List (Piece α)) : List Char :=
  ps.flatMap fun
    | .char c => [c]
    | .item a => f a

/-- The items, in order. -/
def items (ps : List (Piece α)) : List α :=
  ps.filterMap fun
    | .char _ => none
    | .item a => some a

/-- An item of a text at its byte offset. -/
structure Located (α : Type) where
  item : α
  start : Nat

/-- The items with their byte offsets, where `text a` is the text of the item `a`. -/
def located (text : α → List Char) : Nat → List (Piece α) → List (Located α)
  | _, [] => []
  | offset, .char c :: ps => located text (offset + c.utf8Size) ps
  | offset, .item a :: ps => ⟨a, offset⟩ :: located text (offset + utf8Length (text a)) ps

/-- The distinct texts of a list, in order of their first appearance. -/
def distinct (texts : List String) : List String :=
  texts.foldl (fun seen t => if seen.contains t then seen else seen ++ [t]) []

/-! ## Laws -/

@[simp] theorem pieces_nil (read? : Reader α) : pieces read? [] = [] := by
  simp [pieces, piecesAfter]

theorem pieces_cons_of_none {read? : Reader α} {c : Char} {s : List Char}
    (h : read? (c :: s) = none) : pieces read? (c :: s) = .char c :: pieces read? s := by
  simp [pieces, piecesAfter, h]

theorem piecesAfter_append (read? : Reader α) (s rest : List Char) :
    piecesAfter read? s.length (s ++ rest) = pieces read? rest := by
  induction s with
  | nil => rfl
  | cons c s ih => simpa [piecesAfter] using ih

theorem pieces_cons_of_some {read? : Reader α} {c : Char} {s rest : List Char} {a : α}
    (h : read? (c :: (s ++ rest)) = some (a, rest)) :
    pieces read? (c :: (s ++ rest)) = .item a :: pieces read? rest := by
  rw [← piecesAfter_append read? s rest]
  simp [pieces, piecesAfter, h]

end Letterpress.Text
