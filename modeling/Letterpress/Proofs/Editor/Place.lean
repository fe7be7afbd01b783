/-
  Places of blocks in a tree.

  * `Place` is an index on the canvas, or an index in a column of a row; `Slot` is a tree around the
    blocks of one column.
  * `StandsAt b p rest full`: the tree `full` is `rest` with the block `b` at the place `p`, and
    nothing else differs.  `StandsAt.flatMap_perm`: it has what `rest` has, and what the block has.
  * `Place.inColumn?` is a place in the column that is found by identifiers;
    `Slot.Named.inColumn?_onBlocks`: to change the blocks of that column is to fill its slot with
    others.
  * `standsAt_of_takeFromColumn?`, `standsAt_of_putIntoColumn?` and `exists_cut_of_reorder?` say
    where the block of an edit stands before and after it.
-/
import Letterpress.Proofs.Editor.InPlace

namespace Letterpress.Editing

variable {α β γ : Type}

/-! ## Places -/

/-- A place for a block. -/
inductive Place where
  | canvas (index : Nat)
  /-- An index in a column, by the indices of the row on the canvas and of the column in it. -/
  | column (row column index : Nat)
deriving DecidableEq, Repr

/-- A tree around the blocks of one column. -/
structure Slot where
  before : List Block
  after : List Block
  rowId : String
  layout : RowLayout
  left : List Column
  right : List Column
  column : Column

namespace Slot

/-- The row with blocks in the column. -/
def row (s : Slot) (bs : List ContentBlock) : RowLayout :=
  { s.layout with columns := s.left ++ { s.column with blocks := bs } :: s.right }

/-- The tree with blocks in the column. -/
def fill (s : Slot) (bs : List ContentBlock) : List Block :=
  s.before ++ .row s.rowId (s.row bs) :: s.after

/-- A place in the column. -/
def place (s : Slot) (index : Nat) : Place := .column s.before.length s.left.length index

end Slot

/-- The second tree is the first one with a block at a place; nothing else differs. -/
inductive StandsAt : Block → Place → List Block → List Block → Prop
  | canvas (b : Block) (before after : List Block) :
      StandsAt b (.canvas before.length) (before ++ after) (before ++ b :: after)
  | column (b : ContentBlock) (s : Slot) (above below : List ContentBlock) :
      StandsAt (.content b) (s.place above.length) (s.fill (above ++ below))
        (s.fill (above ++ b :: below))

section

variable {v : Block → List γ} {own : String → List γ} {w : ContentBlock → List γ}

/-- A view of the blocks sees those of the column between two parts that do not depend on them. -/
theorem Slot.exists_flatMap_fill
    (hrow : ∀ id l, v (.row id l) = own id ++ l.columns.flatMap fun c => c.blocks.flatMap w)
    (s : Slot) : ∃ front back, ∀ bs, (s.fill bs).flatMap v = front ++ (bs.flatMap w ++ back) := by
  refine ⟨s.before.flatMap v ++ (own s.rowId ++ s.left.flatMap fun c => c.blocks.flatMap w),
    (s.right.flatMap fun c => c.blocks.flatMap w) ++ s.after.flatMap v, fun bs => ?_⟩
  simp only [fill, row, List.flatMap_append, List.flatMap_cons, hrow, List.append_assoc]

/-- What a block in a column adds to a row, it adds to the tree. -/
theorem StandsAt.flatMap_perm {b : Block} {p : Place} {rest full : List Block}
    (hrow : ∀ id l, v (.row id l) = own id ++ l.columns.flatMap fun c => c.blocks.flatMap w)
    (hcontent : ∀ b, v (.content b) = w b) (h : StandsAt b p rest full) :
    (full.flatMap v).Perm (v b ++ rest.flatMap v) := by
  cases h with
  | canvas _ before after =>
    rw [List.flatMap_append, List.flatMap_append, List.flatMap_cons]
    exact List.perm_append_comm_assoc _ _ _
  | column b s above below =>
    obtain ⟨front, back, hfill⟩ := s.exists_flatMap_fill hrow
    rw [hfill, hfill, hcontent, List.flatMap_append, List.flatMap_append, List.flatMap_cons]
    simp only [List.append_assoc]
    calc
      List.Perm _ (front ++ (w b ++ (above.flatMap w ++ (below.flatMap w ++ back)))) :=
        (List.perm_append_comm_assoc _ _ _).append_left front
      List.Perm _ _ := List.perm_append_comm_assoc _ _ _

end

/-! ## Columns that are found by identifiers -/

/-- A place in the first column of an identifier in the first row of an identifier; the index may
    depend on the blocks of the column. -/
def Place.inColumn? (row column : String) (index : List ContentBlock → Option Nat)
    (tree : List Block) : Option Place := do
  let r ← tree.findIdx? (isRowWith row)
  let l ← findRow? row tree
  let k ← l.columns.findIdx? fun c => c.id == column
  let c ← findColumn? row column tree
  return .column r k (← index c.blocks)

/-- The column is the first one of an identifier in the first row of an identifier. -/
structure Slot.Named (s : Slot) (row column : String) : Prop where
  before : ∀ x ∈ s.before, isRowWith row x = false
  row : s.rowId = row
  left : ∀ c ∈ s.left, (c.id == column) = false
  column : s.column.id = column

section

variable {p : α → Bool} {before after : List α} {a : α}

theorem find?_append_cons (hbefore : ∀ x ∈ before, p x = false) (ha : p a = true) :
    (before ++ a :: after).find? p = some a := by
  refine List.find?_eq_some_iff_append.mpr ⟨ha, before, after, rfl, fun x hx => ?_⟩
  rw [hbefore x hx, Bool.not_false]

theorem findIdx?_append_cons (hbefore : ∀ x ∈ before, p x = false) (ha : p a = true) :
    (before ++ a :: after).findIdx? p = some before.length := by
  have hnone : before.findIdx? p = none := List.findIdx?_eq_none_iff.mpr hbefore
  rw [List.findIdx?_append, hnone, Option.none_or, List.findIdx?_cons, ha, if_pos rfl,
    Option.map_some, Nat.zero_add]

/-- Only the first item that satisfies the condition is changed. -/
theorem modifyFirst?_append_cons {f : α → Option (β × α)} (hbefore : ∀ x ∈ before, p x = false)
    (ha : p a = true) : modifyFirst? p f (before ++ a :: after) =
      (f a).map fun r => (r.1, before ++ r.2 :: after) := by
  induction before with
  | nil => simp [modifyFirst?, ha]
  | cons x before ih =>
    obtain ⟨hx, hbefore⟩ := List.forall_mem_cons.mp hbefore
    rw [List.cons_append, modifyFirst?, hx, if_neg Bool.false_ne_true, ih hbefore, Option.map_map]
    rfl

end

section

variable {row column : String} {s : Slot} {bs : List ContentBlock}

theorem Slot.Named.isRowWith (h : s.Named row column) :
    isRowWith row (.row s.rowId (s.row bs)) = true := by
  simp [Editing.isRowWith, Block.isRow, Block.row?, Block.id, h.row]

theorem Slot.Named.beq_column (h : s.Named row column) : (s.column.id == column) = true := by
  simp [h.column]

theorem Slot.Named.findRow? (h : s.Named row column) :
    findRow? row (s.fill bs) = some (s.row bs) := by
  rw [Editing.findRow?, Slot.fill, find?_append_cons h.before h.isRowWith]
  rfl

theorem Slot.Named.findColumn? (h : s.Named row column) :
    findColumn? row column (s.fill bs) = some { s.column with blocks := bs } := by
  rw [Editing.findColumn?, h.findRow?, Option.bind_some, RowLayout.column?, Slot.row]
  simp only [← beq_eq_decide]
  exact find?_append_cons h.left h.beq_column

/-- The slot of a column is where the column is found. -/
theorem Slot.Named.inColumn? (h : s.Named row column) (index : List ContentBlock → Option Nat) :
    Place.inColumn? row column index (s.fill bs) = (index bs).map s.place := by
  have hr : (s.fill bs).findIdx? (Editing.isRowWith row) = some s.before.length :=
    findIdx?_append_cons h.before h.isRowWith
  have hk : ((s.row bs).columns.findIdx? fun c => c.id == column) = some s.left.length :=
    findIdx?_append_cons h.left h.beq_column
  rw [Place.inColumn?, hr, h.findRow?, h.findColumn?]
  simp only [Option.bind_eq_bind, Option.bind_some, hk]
  cases index bs <;> rfl

/-- A change of the blocks of a column happens in its slot. -/
theorem exists_slot_of_inColumn? {f : List ContentBlock → Option (β × List ContentBlock)} {b : β}
    {tree tree' : List Block} (h : inColumn? row column (onBlocks f) tree = some (b, tree')) :
    ∃ s : Slot, s.Named row column ∧
      ∃ bs bs', tree = s.fill bs ∧ tree' = s.fill bs' ∧ f bs = some (b, bs') := by
  obtain ⟨before, x, x', after, htree, htree', hbefore, hfind, hx⟩ := modifyFirst?_eq_some h
  obtain ⟨id, l, l', rfl, rfl, hl⟩ := onLayout_eq_some hx
  obtain ⟨columns, hcolumns, rfl⟩ := inLayout?_eq_some hl
  obtain ⟨left, c, c', right, hcut, hcut', hleft, hfindc, hc⟩ := modifyFirst?_eq_some hcolumns
  obtain ⟨bs', hbs, rfl⟩ := onBlocks_eq_some hc
  have hrow : id = row := by
    simpa [isRowWith, Block.isRow, Block.row?, Block.id] using List.find?_some hfind
  have hcolumn : c.id = column := by simpa using List.find?_some hfindc
  refine ⟨⟨before, after, id, l, left, right, c⟩, ⟨hbefore, hrow, hleft, hcolumn⟩, c.blocks, bs',
    ?_, ?_, hbs⟩
  · rw [htree, Slot.fill, Slot.row, ← hcut]
  · rw [htree', Slot.fill, Slot.row, hcut']

/-- A change of the blocks of a column fills its slot. -/
theorem Slot.Named.inColumn?_onBlocks (h : s.Named row column)
    (f : List ContentBlock → Option (β × List ContentBlock)) :
    Editing.inColumn? row column (onBlocks f) (s.fill bs) =
      (f bs).map fun r => (r.1, s.fill r.2) := by
  have hcolumns : modifyFirst? (fun c => c.id == column) (onBlocks f) (s.row bs).columns =
      (f bs).map fun r => (r.1, s.left ++ { s.column with blocks := r.2 } :: s.right) := by
    have hcolumn : (({ s.column with blocks := bs } : Column).id == column) = true := h.beq_column
    refine (modifyFirst?_append_cons h.left hcolumn).trans ?_
    rw [onBlocks, Option.map_map]
    rfl
  rw [Slot.fill, Editing.inColumn?, inRow?, modifyFirst?_append_cons h.before h.isRowWith, onLayout,
    inLayout?, hcolumns, Option.map_map, Option.map_map, Option.map_map]
  rfl

/-- A column that is found has its slot. -/
theorem exists_slot_of_findColumn? {tree : List Block} {c : Column}
    (h : findColumn? row column tree = some c) :
    ∃ s : Slot, s.Named row column ∧ tree = s.fill c.blocks := by
  have hsome : (inColumn? row column (onBlocks fun bs => some ((), bs)) tree).isSome := by
    rw [isSome_inColumn?, h]
    rfl
  obtain ⟨⟨u, tree'⟩, hsame⟩ := Option.isSome_iff_exists.mp hsome
  obtain ⟨s, hs, bs, bs', rfl, -, -⟩ := exists_slot_of_inColumn? hsame
  rw [hs.findColumn?] at h
  cases h
  exact ⟨s, hs, rfl⟩

/-- A row that is found is changed where it stands. -/
theorem exists_cut_of_findRow? {blocks : List Block} {l : RowLayout}
    (h : findRow? row blocks = some l) : ∃ before after, blocks = before ++ .row row l :: after ∧
      (∀ x ∈ before, isRowWith row x = false) ∧
      ∀ f : RowLayout → Option (β × RowLayout),
        inRow? row f blocks = (f l).map fun r => (r.1, before ++ .row row r.2 :: after) := by
  obtain ⟨x, hx, hrow⟩ := Option.bind_eq_some_iff.mp h
  obtain ⟨hp, before, after, rfl, hbefore⟩ := List.find?_eq_some_iff_append.mp hx
  have hbefore : ∀ y ∈ before, isRowWith row y = false := by simpa using hbefore
  cases x with
  | content c => cases hrow
  | row id k =>
    obtain rfl : k = l := Option.some.inj hrow
    obtain rfl : id = row := by simpa [isRowWith, Block.isRow, Block.row?, Block.id] using hp
    refine ⟨before, after, rfl, hbefore, fun f => ?_⟩
    rw [inRow?, modifyFirst?_append_cons hbefore hp, onLayout, Option.map_map]
    rfl

end

/-! ## Edits of lists -/

section

variable {l : List α}

theorem exists_cut_of_insertIdx (a : α) {i : Nat} (h : i ≤ l.length) :
    ∃ left right, l = left ++ right ∧ l.insertIdx i a = left ++ a :: right ∧ left.length = i := by
  induction l generalizing i with
  | nil =>
    obtain rfl : i = 0 := Nat.le_zero.mp h
    exact ⟨[], [], rfl, rfl, rfl⟩
  | cons x l ih =>
    cases i with
    | zero => exact ⟨[], x :: l, rfl, rfl, rfl⟩
    | succ i =>
      obtain ⟨left, right, hl, hins, hlen⟩ := ih (Nat.le_of_succ_le_succ h)
      refine ⟨x :: left, right, ?_, ?_, ?_⟩
      · rw [List.cons_append, ← hl]
      · rw [List.insertIdx_succ_cons, hins, List.cons_append]
      · rw [List.length_cons, hlen]

theorem exists_cut_of_eraseIdx {a : α} {i : Nat} (h : l[i]? = some a) :
    ∃ left right, l = left ++ a :: right ∧ l.eraseIdx i = left ++ right ∧ left.length = i := by
  obtain ⟨hi, rfl⟩ := List.getElem?_eq_some_iff.mp h
  refine ⟨l.take i, l.drop (i + 1), ?_, List.eraseIdx_eq_take_drop_succ l i, ?_⟩
  · rw [← List.drop_eq_getElem_cons hi, List.take_append_drop]
  · rw [List.length_take, Nat.min_eq_left (Nat.le_of_lt hi)]

/-- An item that is moved stands at the one index before, and at the other one after. -/
theorem exists_cut_of_reorder? {origin target : Nat} {l' : List α}
    (h : reorder? origin target l = some l') :
    ∃ a left right left' right', l = left ++ a :: right ∧ l' = left' ++ a :: right' ∧
      left ++ right = left' ++ right' ∧ left.length = origin ∧ left'.length = target := by
  rw [reorder?] at h
  split at h
  · cases h
  · rename_i hrange
    obtain ⟨a, ha, rfl⟩ := Option.map_eq_some_iff.mp h
    obtain ⟨left, right, rfl, herase, horigin⟩ := exists_cut_of_eraseIdx ha
    have htarget : target ≤ ((left ++ a :: right).eraseIdx origin).length := by
      rw [herase]
      simp only [Bool.or_eq_true, decide_eq_true_eq, List.length_append, List.length_cons]
        at hrange ⊢
      omega
    obtain ⟨left', right', hcut, hins, hlen⟩ := exists_cut_of_insertIdx a htarget
    exact ⟨a, left, right, left', right', rfl, hins, herase.symm.trans hcut, horigin, hlen⟩

theorem exists_cut_of_take? {id : String} {bs rest : List ContentBlock} {t : ContentBlock}
    (h : take? id bs = some (t, rest)) :
    ∃ above below, bs = above ++ t :: below ∧ rest = above ++ below ∧
      (bs.findIdx? fun b => b.id == id) = some above.length := by
  rw [take?_eq_bind, Option.bind_eq_some_iff] at h
  obtain ⟨i, hi, h⟩ := h
  obtain ⟨b, hb, ⟨⟩⟩ := Option.map_eq_some_iff.mp h
  obtain ⟨above, below, hbs, herase, hlen⟩ := exists_cut_of_eraseIdx hb
  exact ⟨above, below, hbs, herase, by rw [hi, hlen]⟩

end

/-! ## Edits of trees -/

/-- A block that is inserted at the top level stands at the index, or at the end. -/
theorem standsAt_insertUpTo (index : Nat) (b : Block) (tree : List Block) :
    StandsAt b (.canvas (min index tree.length)) tree (insertUpTo index b tree) := by
  obtain ⟨before, after, hcut, hins, hlen⟩ :=
    exists_cut_of_insertIdx b (Nat.min_le_right index tree.length)
  rw [insertUpTo, hins, ← hlen, hcut]
  exact .canvas b before after

section

variable {row column id : String} {tree tree' : List Block} {b : ContentBlock}

/-- A block that is taken out of a column was the first one of its identifier there. -/
theorem standsAt_of_takeFromColumn? (h : takeFromColumn? row column id tree = some (b, tree')) :
    ∃ p, Place.inColumn? row column (fun bs => bs.findIdx? fun b => b.id == id) tree = some p ∧
      StandsAt (.content b) p tree' tree := by
  obtain ⟨s, hs, bs, bs', rfl, rfl, htake⟩ := exists_slot_of_inColumn? h
  obtain ⟨above, below, rfl, rfl, hindex⟩ := exists_cut_of_take? htake
  exact ⟨s.place above.length, by rw [hs.inColumn?, hindex]; rfl, .column b s above below⟩

/-- To put a block into a column is to fill its slot with one more. -/
theorem exists_slot_of_putIntoColumn? {index : Option Nat}
    (h : putIntoColumn? row column index b tree = some tree') : ∃ s : Slot, s.Named row column ∧
      ∃ bs, tree = s.fill bs ∧ tree' = s.fill (insertAt index b bs) := by
  obtain ⟨⟨u, full⟩, hput, rfl⟩ := Option.map_eq_some_iff.mp h
  obtain ⟨s, hs, bs, bs', rfl, rfl, hins⟩ := exists_slot_of_inColumn? hput
  cases hins
  exact ⟨s, hs, bs, rfl, rfl⟩

/-- A block that is put into a column stands at the index there, or at the end. -/
theorem standsAt_of_putIntoColumn? {index : Nat}
    (h : putIntoColumn? row column (some index) b tree = some tree') :
    ∃ p, Place.inColumn? row column (fun bs => some (min index bs.length)) tree = some p ∧
      StandsAt (.content b) p tree tree' := by
  obtain ⟨s, hs, bs, rfl, rfl⟩ := exists_slot_of_putIntoColumn? h
  obtain ⟨above, below, hcut, hins, hlen⟩ :=
    exists_cut_of_insertIdx b (Nat.min_le_right index bs.length)
  refine ⟨s.place (min index bs.length), hs.inColumn? _, ?_⟩
  rw [insertAt, Option.getD_some, insertUpTo, hins, ← hlen, hcut]
  exact .column b s above below

end

end Letterpress.Editing
