/-
  Edits that take back other edits.

  * `eraseIdx_insertUpTo`, `insertUpTo_eraseIdx` and `reorder?_reorder?`: the laws of lists.
  * `takeFromColumn?_of_putIntoColumn?` and `exists_takeFromColumn?_of_nodup`: the laws of columns.
    A block is found where it was put if its identifier was not in the tree.
  * `Session.Restores x op inv`: after `op`, `inv` is accepted and brings back the blocks.
  * `Session.Invertible` has one law for each kind of edit, and `Session.edits_have_inverses` says
    that they hold in each session with distinct identifiers.
-/
import Letterpress.Proofs.Editor.Acceptance
import Letterpress.Proofs.Editor.Identifiers
import Letterpress.Proofs.Editor.Undo

namespace Letterpress

open Minting Editing

namespace Editing

/-! ## Lists -/

section

variable {α : Type} {a : α} {i : Nat} {l : List α}

theorem eraseIdx_insertUpTo (i : Nat) (a : α) (l : List α) :
    (insertUpTo i a l).eraseIdx (min i l.length) = l :=
  List.eraseIdx_insertIdx_self a

theorem insertUpTo_eraseIdx (h : l[i]? = some a) : insertUpTo i a (l.eraseIdx i) = l := by
  obtain ⟨hi, rfl⟩ := List.getElem?_eq_some_iff.mp h
  have hle : i ≤ (l.eraseIdx i).length := by
    rw [List.length_eraseIdx_of_lt hi]
    omega
  rw [insertUpTo, Nat.min_eq_left hle, List.insertIdx_eraseIdx_getElem]

/-- The first item that satisfies a condition is the inserted one, if no other does. -/
theorem findIdx?_insertUpTo {p : α → Bool} (h : ∀ x ∈ l, p x = false) (ha : p a = true) (i : Nat) :
    (insertUpTo i a l).findIdx? p = some (min i l.length) := by
  obtain ⟨left, right, hcut, hins, hlen⟩ := exists_cut_of_insertIdx a (Nat.min_le_right i l.length)
  rw [insertUpTo, hins, ← hlen]
  refine findIdx?_append_cons (fun x hx => h x ?_) ha
  rw [hcut]
  exact List.mem_append_left _ hx

/-- An item whose name is the only one of its kind is found where it is. -/
theorem findIdx?_of_nodup {v : α → String} (hnodup : (l.map v).Nodup) (h : l[i]? = some a) :
    (l.findIdx? fun x => v x == v a) = some i := by
  obtain ⟨left, right, rfl, -, rfl⟩ := exists_cut_of_eraseIdx h
  refine findIdx?_append_cons (fun x hx => ?_) (by simp)
  rw [List.map_append, List.map_cons] at hnodup
  have hne : v x ≠ v a :=
    (List.nodup_append.mp hnodup).2.2 (v x) (List.mem_map_of_mem hx) (v a) List.mem_cons_self
  simpa using hne

theorem isSome_reorder? {origin target : Nat} (horigin : origin < l.length)
    (htarget : target < l.length) (hne : origin ≠ target) :
    (reorder? origin target l).isSome = true := by
  rw [Option.isSome_iff_ne_none, ne_eq, reorder?_eq_none_iff horigin]
  omega

/-- The reverse move takes an item back. -/
theorem reorder?_reorder? {origin target : Nat} {l' : List α}
    (h : reorder? origin target l = some l') : reorder? target origin l' = some l := by
  have hlength := (reorder?_perm h).length_eq
  rw [reorder?] at h
  split at h
  · cases h
  · rename_i hrange
    obtain ⟨a, ha, rfl⟩ := Option.map_eq_some_iff.mp h
    obtain ⟨horigin, rfl⟩ := List.getElem?_eq_some_iff.mp ha
    simp only [Bool.or_eq_true, decide_eq_true_eq, not_or, Nat.not_le] at hrange
    have hle : target ≤ (l.eraseIdx origin).length := by
      rw [List.length_eraseIdx_of_lt horigin]
      omega
    have hback : ¬ (decide (target = origin) ||
        decide (((l.eraseIdx origin).insertIdx target l[origin]).length ≤ origin)) = true := by
      rw [hlength]
      simpa using ⟨fun heq => hrange.1 heq.symm, horigin⟩
    rw [reorder?, if_neg hback, List.getElem?_insertIdx_self, if_pos hle, Option.map_some,
      List.eraseIdx_insertIdx_self, List.insertIdx_eraseIdx_getElem]

end

/-! ## Columns -/

section

variable {row column : String} {tree tree' : List Block} {b : ContentBlock}
variable {bs : List ContentBlock} {i : Nat}

theorem take?_insertAt (h : ∀ x ∈ bs, x.id ≠ b.id) (index : Option Nat) :
    take? b.id (insertAt index b bs) = some (b, bs) := by
  rw [take?_eq_bind, insertAt, findIdx?_insertUpTo (by simpa using h) (by simp), Option.bind_some,
    eraseIdx_insertUpTo, insertUpTo, List.getElem?_insertIdx_self,
    if_pos (Nat.min_le_right _ _)]
  rfl

theorem take?_of_nodup (hnodup : (bs.map (·.id)).Nodup) (h : bs[i]? = some b) :
    take? b.id bs = some (b, bs.eraseIdx i) := by
  rw [take?_eq_bind, findIdx?_of_nodup hnodup h, Option.bind_some, h]
  rfl

/-- The identifiers in a column are some of those in the tree. -/
theorem Slot.ids_sublist (s : Slot) (bs : List ContentBlock) :
    (bs.map (·.id)).Sublist ((s.fill bs).flatMap Block.ids) := by
  have hrow : ∀ id l, (Block.row id l).ids =
      [id] ++ l.columns.flatMap fun c => c.blocks.flatMap fun b => [b.id] := by
    intro id l
    simp only [← List.map_eq_flatMap]
    rfl
  obtain ⟨front, back, hfill⟩ := s.exists_flatMap_fill hrow
  rw [hfill, List.map_eq_flatMap]
  exact (List.sublist_append_left _ _).trans (List.sublist_append_right _ _)

/-- A block that is put into a column under a new identifier is taken out of it again. -/
theorem takeFromColumn?_of_putIntoColumn? {index : Option Nat}
    (hnew : b.id ∉ tree.flatMap Block.ids)
    (h : putIntoColumn? row column index b tree = some tree') :
    takeFromColumn? row column b.id tree' = some (b, tree) := by
  obtain ⟨s, hs, bs, rfl, rfl⟩ := exists_slot_of_putIntoColumn? h
  have hother : ∀ x ∈ bs, x.id ≠ b.id := by
    intro x hx heq
    exact hnew ((s.ids_sublist bs).subset (heq ▸ List.mem_map_of_mem hx))
  rw [hs.takeFromColumn?, take?_insertAt hother]
  rfl

/-- A block that is taken out of a column is put back where it was. -/
theorem exists_takeFromColumn?_of_nodup (hids : (tree.flatMap Block.ids).Nodup) {c : Column}
    (hc : findColumn? row column tree = some c) (hb : c.blocks[i]? = some b) :
    ∃ rest, takeFromColumn? row column b.id tree = some (b, rest) ∧
      putIntoColumn? row column (some i) b rest = some tree ∧
      b.id ∉ rest.flatMap Block.ids := by
  obtain ⟨s, hs, rfl⟩ := exists_slot_of_findColumn? hc
  have htake : takeFromColumn? row column b.id (s.fill c.blocks) =
      some (b, s.fill (c.blocks.eraseIdx i)) := by
    rw [hs.takeFromColumn?, take?_of_nodup ((s.ids_sublist c.blocks).nodup hids) hb]
    rfl
  refine ⟨s.fill (c.blocks.eraseIdx i), htake, ?_, ?_⟩
  · rw [hs.putIntoColumn?, insertAt, Option.getD_some, insertUpTo_eraseIdx hb]
  · exact (List.nodup_cons.mp ((ids_of_takeFromColumn? htake).nodup_iff.mp hids)).1

end

/-! ## The top level -/

section

variable {tree : List Block} {b : Block} {i : Nat}

theorem map_id_sublist (tree : List Block) :
    (tree.map Block.id).Sublist (tree.flatMap Block.ids) := by
  rw [List.map_eq_flatMap]
  refine List.Sublist.flatMap_right _ fun b _ => ?_
  rw [b.ids_eq]
  exact List.singleton_sublist.mpr List.mem_cons_self

theorem notMem_eraseIdx (hids : (tree.flatMap Block.ids).Nodup) (h : tree[i]? = some b) :
    b.id ∉ (tree.eraseIdx i).flatMap Block.ids := by
  obtain ⟨left, right, rfl, herase, -⟩ := exists_cut_of_eraseIdx h
  rw [herase]
  exact id_notMem_cut hids

end

end Editing

/-! ## Edits of a session -/

namespace Editor

section

variable {e e' : Editor} {row column toRow toColumn : String} {b : ContentBlock}
variable {tree : List Block} {i origin target : Nat}

theorem exists_remove? {x : Block} (index : Option Nat) (hnew : x.id ∉ tree.flatMap Block.ids)
    (h : e.blocks = insertAt index x tree) :
    ∃ e', e.remove? x.id = some e' ∧ e'.blocks = tree := by
  have hother : ∀ y ∈ tree, (y.id == x.id) = false := by
    intro y hy
    rw [beq_eq_false_iff_ne]
    intro heq
    exact hnew (List.mem_flatMap.mpr ⟨y, hy, heq ▸ y.id_mem_ids⟩)
  have hfind := findIdx?_insertUpTo hother (beq_self_eq_true x.id) (index.getD tree.length)
  refine ⟨_, congrArg (Option.map _) ((congrArg _ h).trans hfind), ?_⟩
  show e.blocks.eraseIdx _ = tree
  rw [h, insertAt, eraseIdx_insertUpTo]

theorem exists_removeFromColumn? {index : Option Nat} (hnew : b.id ∉ tree.flatMap Block.ids)
    (h : putIntoColumn? row column index b tree = some e.blocks) :
    ∃ e', e.removeFromColumn? row column b.id = some e' ∧ e'.blocks = tree :=
  ⟨_, congrArg (Option.map _) (takeFromColumn?_of_putIntoColumn? hnew h), rfl⟩

theorem exists_move? (h : e.move? origin target = some e') :
    ∃ e'', e'.move? target origin = some e'' ∧ e''.blocks = e.blocks := by
  obtain ⟨blocks, hmove, rfl⟩ := Option.map_eq_some_iff.mp h
  exact ⟨_, congrArg (Option.map _) (reorder?_reorder? hmove), rfl⟩

theorem exists_moveWithinColumn? (h : e.moveWithinColumn? row column origin target = some e') :
    ∃ e'', e'.moveWithinColumn? row column target origin = some e'' ∧ e''.blocks = e.blocks := by
  obtain ⟨s, hs, bs, bs', hold, hmoved, rfl⟩ := exists_slot_of_moveWithinColumn? h
  refine ⟨(e.record (s.fill bs')).record (s.fill bs), ?_, hold.symm⟩
  refine (moveWithinColumn?_of_slot hs rfl target origin).trans ?_
  rw [reorder?_reorder? hmoved]
  rfl

/-- Back at the top level, at the index from which it was taken. -/
theorem exists_moveToCanvas? (hids : (tree.flatMap Block.ids).Nodup)
    (hb : tree[i]? = some (.content b)) {index : Option Nat}
    (h : putIntoColumn? row column index b (tree.eraseIdx i) = some e.blocks) :
    ∃ e', e.moveToCanvas? row column b.id i = some e' ∧ e'.blocks = tree := by
  have htake := takeFromColumn?_of_putIntoColumn? (notMem_eraseIdx hids hb) h
  exact ⟨_, congrArg (Option.map _) htake, insertUpTo_eraseIdx hb⟩

/-- Back in the column from which it was taken. -/
theorem exists_moveNested?_back {rest : List Block} {index : Option Nat}
    (hnew : b.id ∉ rest.flatMap Block.ids)
    (hback : putIntoColumn? row column (some i) b rest = some tree)
    (h : putIntoColumn? toRow toColumn index b rest = some e.blocks) :
    ∃ e', e.moveNested? toRow toColumn row column b.id i = some e' ∧ e'.blocks = tree := by
  have htake := takeFromColumn?_of_putIntoColumn? hnew h
  have hcolumn : (findColumn? row column e.blocks).isSome = true := by
    rw [isSome_findColumn?_of_outline (outline_of_putIntoColumn? h), ← isSome_putIntoColumn?, hback]
    rfl
  obtain ⟨blocks, hput, hmove⟩ := exists_moveNested? htake hcolumn i
  exact ⟨_, hmove, Option.some.inj (hput.symm.trans hback)⟩

end

end Editor

/-! ## Sessions -/

namespace Session

/-- After an operation another one is accepted, and it brings back the blocks. -/
structure Restores (x : Session) (op inverse : Operation) : Prop where
  accepted : (x.next op).answer inverse = .accepted
  restored : ((x.next op).next inverse).editor.blocks = x.editor.blocks

/-- Each edit has an inverse. -/
structure Invertible (x : Session) : Prop where
  /-- A new block at the top level is removed. -/
  addBlock : ∀ kind index, ∃ id, x.answer (.addBlock kind index) = .made id ∧
    x.Restores (.addBlock kind index) (.remove id)
  /-- A new block in a column is removed; there is one unless it would be a row. -/
  addToColumn : ∀ row column kind index,
    (∀ id, x.answer (.addToColumn row column kind index) = .made id →
      x.Restores (.addToColumn row column kind index) (.removeFromColumn row column id)) ∧
    (kind ≠ .row → (findColumn? row column x.editor.blocks).isSome = true →
      ∃ id, x.answer (.addToColumn row column kind index) = .made id)
  /-- A block moves back at the top level. -/
  move : ∀ a b, a < x.editor.blocks.length → b < x.editor.blocks.length → a ≠ b →
    x.answer (.move a b) = .accepted ∧ x.Restores (.move a b) (.move b a)
  /-- A block moves back in its column. -/
  moveWithinColumn : ∀ row column c a b, findColumn? row column x.editor.blocks = some c →
    a < c.blocks.length → b < c.blocks.length → a ≠ b →
      x.answer (.moveWithinColumn row column a b) = .accepted ∧
        x.Restores (.moveWithinColumn row column a b) (.moveWithinColumn row column b a)
  /-- A content block moves into a column and back. -/
  moveIntoColumn : ∀ i b row column index, x.editor.blocks[i]? = some (.content b) →
    b.kind ≠ .row → (findColumn? row column x.editor.blocks).isSome = true →
      x.answer (.moveIntoColumn b.id row column index) = .accepted ∧
        x.Restores (.moveIntoColumn b.id row column index) (.moveToCanvas row column b.id i)
  /-- A block moves from a column into another one, or the same, and back. -/
  moveNested : ∀ row column c i b toRow toColumn index,
    findColumn? row column x.editor.blocks = some c → c.blocks[i]? = some b →
    (findColumn? toRow toColumn x.editor.blocks).isSome = true →
      x.answer (.moveNested row column toRow toColumn b.id index) = .accepted ∧
        x.Restores (.moveNested row column toRow toColumn b.id index)
          (.moveNested toRow toColumn row column b.id i)

variable {x : Session} {op inverse : Operation}

/-- The inverse is an operation that may be refused, and is not. -/
theorem Restores.of_settle {e : Editor} {changed : Option Editor} (hnext : (x.next op).editor = e)
    (hrun : inverse.run e = pure (e.settle changed))
    (h : ∃ e', changed = some e' ∧ e'.blocks = x.editor.blocks) : x.Restores op inverse := by
  obtain ⟨e', hchanged, hblocks⟩ := h
  rw [← hnext] at hrun
  obtain ⟨hanswer, hback⟩ := next_of_settle_some hrun hchanged
  refine ⟨hanswer, ?_⟩
  rw [hback, hblocks]

/-- Both are operations that may be refused, and are not. -/
theorem restores_of_settle {changed : Option Editor} {e : Editor} {back : Option Editor}
    (hrun : op.run x.editor = pure (x.editor.settle changed)) (h : changed = some e)
    (hback : inverse.run e = pure (e.settle back))
    (hblocks : ∃ e', back = some e' ∧ e'.blocks = x.editor.blocks) :
    x.answer op = .accepted ∧ x.Restores op inverse := by
  obtain ⟨hanswer, hnext⟩ := next_of_settle_some hrun h
  exact ⟨hanswer, .of_settle (congrArg (·.editor) hnext) hback hblocks⟩

theorem restores_addBlock (hfresh : x.supply.Fresh (x.editor.blocks.flatMap Block.ids))
    (kind : Kind) (index : Option Nat) : ∃ id, x.answer (.addBlock kind index) = .made id ∧
      x.Restores (.addBlock kind index) (.remove id) := by
  obtain ⟨minted, hm, b, -, hid, hmade⟩ := @Editor.yields_addBlock x.editor kind index x.supply
  have hnew : b.id ∉ x.editor.blocks.flatMap Block.ids := (hfresh.mints hm).1.unknown hid
  have hanswer : x.answer (.addBlock kind index) = .made b.id :=
    congrArg (fun made : String × Editor => Answer.made made.1) hmade
  have hnext : (x.next (.addBlock kind index)).editor =
      (x.editor.select b.id).record (insertAt index b x.editor.blocks) :=
    congrArg (·.2) hmade
  exact ⟨b.id, hanswer, .of_settle hnext rfl (Editor.exists_remove? index hnew rfl)⟩

theorem restores_addToColumn (hfresh : x.supply.Fresh (x.editor.blocks.flatMap Block.ids))
    {row column : String} {kind : Kind} {index : Option Nat} {id : String}
    (h : x.answer (.addToColumn row column kind index) = .made id) :
    x.Restores (.addToColumn row column kind index) (.removeFromColumn row column id) := by
  obtain ⟨minted, hm, hmade⟩ := @Editor.yields_addToColumn? x.editor row column kind index x.supply
  cases hsome : (x.editor.addToColumn? row column kind index x.supply).1 with
  | none =>
    have hanswer : x.answer (.addToColumn row column kind index) = .refused :=
      congrArg (fun made => (x.editor.settleMade made).1) hsome
    rw [hanswer] at h
    cases h
  | some m =>
    obtain ⟨b, blocks, -, hid, hput, rfl⟩ := hmade m hsome
    have hnew : b.id ∉ x.editor.blocks.flatMap Block.ids := (hfresh.mints hm).1.unknown hid
    have hanswer : x.answer (.addToColumn row column kind index) = .made b.id :=
      congrArg (fun made => (x.editor.settleMade made).1) hsome
    have hnext : (x.next (.addToColumn row column kind index)).editor =
        (x.editor.select b.id).record blocks :=
      congrArg (fun made => (x.editor.settleMade made).2) hsome
    rw [hanswer] at h
    cases h
    exact .of_settle hnext rfl (Editor.exists_removeFromColumn? hnew hput)

/-- **Edits have exact inverses**, in each session with distinct identifiers of blocks and a fresh
    supply. -/
theorem edits_have_inverses (hids : DistinctIds x.editor.blocks)
    (hfresh : x.supply.Fresh (x.editor.blocks.flatMap Block.ids)) : x.Invertible := by
  constructor
  case addBlock => exact fun kind index => restores_addBlock hfresh kind index
  case addToColumn =>
    intro row column kind index
    refine ⟨fun id => restores_addToColumn hfresh, fun hkind hcolumn => ?_⟩
    have hsome := Editor.isSome_addToColumn? hkind hcolumn index x.supply
    obtain ⟨m, hm⟩ := Option.isSome_iff_exists.mp hsome
    refine ⟨m.1, ?_⟩
    show (x.editor.settleMade (x.editor.addToColumn? row column kind index x.supply).1).1 = _
    rw [hm]
    rfl
  case move =>
    intro a b ha hb hne
    obtain ⟨blocks, hmove⟩ := Option.isSome_iff_exists.mp (isSome_reorder? ha hb hne)
    have hmoved : x.editor.move? a b = some (x.editor.record blocks) :=
      congrArg (Option.map _) hmove
    exact restores_of_settle rfl hmoved rfl (Editor.exists_move? hmoved)
  case moveWithinColumn =>
    intro row column c a b hc ha hb hne
    obtain ⟨s, hs, htree⟩ := exists_slot_of_findColumn? hc
    obtain ⟨blocks, hmove⟩ := Option.isSome_iff_exists.mp (isSome_reorder? ha hb hne)
    have hmoved : x.editor.moveWithinColumn? row column a b =
        some (x.editor.record (s.fill blocks)) := by
      rw [Editor.moveWithinColumn?_of_slot hs htree, hmove]
      rfl
    exact restores_of_settle rfl hmoved rfl (Editor.exists_moveWithinColumn? hmoved)
  case moveIntoColumn =>
    intro i b row column index hb hkind hcolumn
    -- the only block of its identifier is the one that is found
    have hfind := findIdx?_of_nodup ((map_id_sublist _).nodup hids.ids) hb
    obtain ⟨blocks, hput, hmove⟩ := Editor.exists_moveIntoColumn? hfind hb hkind hcolumn index
    exact restores_of_settle rfl hmove rfl (Editor.exists_moveToCanvas? hids.ids hb hput)
  case moveNested =>
    intro row column c i b toRow toColumn index hc hb hcolumn
    obtain ⟨rest, htake, hback, hnew⟩ := exists_takeFromColumn?_of_nodup hids.ids hc hb
    obtain ⟨blocks, hput, hmove⟩ := Editor.exists_moveNested? htake hcolumn index
    exact restores_of_settle rfl hmove rfl (Editor.exists_moveNested?_back hnew hback hput)

/-- A block above a row moves into the row, which moves up by one, and back. -/
theorem edits_have_inverses_of_row :
    let text (id : String) : ContentBlock := ⟨id, .text, []⟩
    let columns : List Column := [⟨"c", "50%", [text "x", text "y"], none⟩, ⟨"d", "50%", [], none⟩]
    let l : RowLayout := ⟨.twoEqual, columns, RowLayout.initialGap, true, .initial⟩
    let x := start [.content (text "a"), .row "r" l] .initial .tally
    DistinctIds x.editor.blocks ∧ x.supply.Fresh (x.editor.blocks.flatMap Block.ids) ∧
      x.Invertible ∧ x.Restores (.moveIntoColumn "a" "r" "c" 1) (.moveToCanvas "r" "c" "a" 0) := by
  intro text columns l x
  have hids : DistinctIds x.editor.blocks := by decide
  have hfresh : x.supply.Fresh (x.editor.blocks.flatMap Block.ids) :=
    Supply.tally_fresh 0 (by decide)
  have hx := edits_have_inverses hids hfresh
  exact ⟨hids, hfresh, hx, (hx.moveIntoColumn 0 (text "a") "r" "c" 1 rfl (by decide) rfl).2⟩

end Session

end Letterpress
