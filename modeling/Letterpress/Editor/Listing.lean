/-
  Edits of lists.

  * `modifyFirst?` changes the first item that satisfies a condition, and may take something out.
  * `insertUpTo` inserts at an index, or at the end if the index is too large.
  * `reorder?` moves an item to an index; both indices must be in range and differ.
  * `landingIndex` is where a dragged item ends up, from the index at which it is dropped.
-/

namespace Letterpress.Editing

variable {α β : Type}

/-- The list with its first item that satisfies `p` changed by `f`, and what `f` gives besides;
    nothing if there is no such item or if `f` refuses it. -/
def modifyFirst? (p : α → Bool) (f : α → Option (β × α)) : List α → Option (β × List α)
  | [] => none
  | a :: rest =>
    if p a then (f a).map fun (b, a) => (b, a :: rest)
    else (modifyFirst? p f rest).map fun (b, rest) => (b, a :: rest)

/-- The list with an item inserted at an index, or at the end. -/
def insertUpTo (index : Nat) (a : α) (l : List α) : List α := l.insertIdx (min index l.length) a

/-- The list with an item inserted at an index, or at the end if there is none. -/
def insertAt (index : Option Nat) (a : α) (l : List α) : List α :=
  insertUpTo (index.getD l.length) a l

/-- The list with the item at `origin` moved to `target`. -/
def reorder? (origin target : Nat) (l : List α) : Option (List α) :=
  if origin = target || l.length ≤ target then none
  else l[origin]?.map fun a => (l.eraseIdx origin).insertIdx target a

/-- The index at which a dragged item ends up: a drop after its old place counts the item itself. -/
def landingIndex (origin dropped : Nat) : Nat := if origin < dropped then dropped - 1 else dropped

end Letterpress.Editing
