/-
  What the edits of block trees keep.

  * `modifyFirst?_eq_some`: the list before and after a change, cut at the item that is changed.
    From it, `modifyFirst?_map`, `modifyFirst?_flatMap` and `modifyFirst?_forall` carry what the
    change of one item keeps over to the list, and `modifyFirst?_again` what two changes of it do.
    `inRow?_map`, `inColumn?_map` and the like do so for trees.
  * `Block.outline?` is a row without what stands in its columns, and `outline` a tree of these.
    `findColumn?_isSome`: it says which columns can be found.
-/
import Mathlib.Data.List.Perm.Basic
import Letterpress.Editor.Tree
import Letterpress.Proofs.Block.Identifiers

namespace Letterpress

/-! ## Views of a block -/

namespace Block

/-- The identifier of a row, with those of its columns. -/
def outline? (b : Block) : Option (String × List String) := b.row?.map fun _ => (b.id, b.columnIds)

end Block

namespace Editing

variable {α β γ : Type}

/-! ## Changing one item of a list -/

section List

variable {p : α → Bool} {f : α → Option (β × α)} {l l' : List α} {b : β}

theorem modifyFirst?_eq_some (h : modifyFirst? p f l = some (b, l')) :
    ∃ before a a' after, l = before ++ a :: after ∧ l' = before ++ a' :: after ∧
      (∀ x ∈ before, p x = false) ∧ l.find? p = some a ∧ f a = some (b, a') := by
  induction l generalizing l' with
  | nil => cases h
  | cons a l ih =>
    rw [modifyFirst?] at h
    rw [List.find?_cons]
    cases ha : p a with
    | true =>
      rw [ha, if_pos rfl] at h
      obtain ⟨⟨b', a'⟩, hf, ⟨⟩⟩ := Option.map_eq_some_iff.mp h
      exact ⟨[], a, a', l, rfl, rfl, by simp, rfl, hf⟩
    | false =>
      rw [ha, if_neg Bool.false_ne_true] at h
      obtain ⟨⟨b', rest⟩, hrest, ⟨⟩⟩ := Option.map_eq_some_iff.mp h
      obtain ⟨before, x, x', after, rfl, rfl, hbefore, hx, hf⟩ := ih hrest
      refine ⟨a :: before, x, x', after, rfl, rfl, fun y hy => ?_, hx, hf⟩
      cases List.mem_cons.mp hy with
      | inl heq => rw [heq, ha]
      | inr hy => exact hbefore y hy

theorem modifyFirst?_map {v : α → γ}
    (hf : ∀ a ∈ l.find? p, ∀ b a', f a = some (b, a') → v a' = v a)
    (h : modifyFirst? p f l = some (b, l')) : l'.map v = l.map v := by
  obtain ⟨before, a, a', after, hl, hl', -, hfind, ha⟩ := modifyFirst?_eq_some h
  rw [hl, hl']
  simp only [List.map_append, List.map_cons, hf a hfind b a' ha]

/-- What a change adds to an item and takes from it, it adds to the list and takes from it. -/
theorem modifyFirst?_flatMap {v : α → List γ} {added : List γ} {taken : β → List γ}
    (hf : ∀ a ∈ l.find? p, ∀ b a', f a = some (b, a') →
      (added ++ v a).Perm (taken b ++ v a'))
    (h : modifyFirst? p f l = some (b, l')) :
    (added ++ l.flatMap v).Perm (taken b ++ l'.flatMap v) := by
  obtain ⟨before, a, a', after, hl, hl', -, hfind, ha⟩ := modifyFirst?_eq_some h
  have hitem := (hf a hfind b a' ha).append_right (after.flatMap v)
  rw [List.append_assoc, List.append_assoc] at hitem
  rw [hl, hl']
  simp only [List.flatMap_append, List.flatMap_cons]
  calc
    List.Perm _ (before.flatMap v ++ (added ++ (v a ++ after.flatMap v))) :=
      List.perm_append_comm_assoc _ _ _
    List.Perm _ (before.flatMap v ++ (taken b ++ (v a' ++ after.flatMap v))) :=
      hitem.append_left _
    List.Perm _ _ := List.perm_append_comm_assoc _ _ _

/-- What holds of all items and is kept by a change still holds after it, and what the change
    gives besides is what it gives for such an item. -/
theorem modifyFirst?_forall_and {P : α → Prop} {Q : β → Prop}
    (hf : ∀ a ∈ l.find? p, ∀ b a', P a → f a = some (b, a') → P a' ∧ Q b)
    (h : modifyFirst? p f l = some (b, l')) (hl : ∀ a ∈ l, P a) : (∀ a ∈ l', P a) ∧ Q b := by
  obtain ⟨before, a, a', after, hcut, hcut', -, hfind, ha⟩ := modifyFirst?_eq_some h
  rw [hcut] at hl
  rw [hcut']
  simp only [List.forall_mem_append, List.forall_mem_cons] at hl ⊢
  obtain ⟨ha', hb⟩ := hf a hfind b a' hl.2.1 ha
  exact ⟨⟨hl.1, ha', hl.2.2⟩, hb⟩

theorem modifyFirst?_forall {P : α → Prop}
    (hf : ∀ a ∈ l.find? p, ∀ b a', P a → f a = some (b, a') → P a')
    (h : modifyFirst? p f l = some (b, l')) (hl : ∀ a ∈ l, P a) : ∀ a ∈ l', P a :=
  (modifyFirst?_forall_and (fun a hfind b a' hP ha => ⟨hf a hfind b a' hP ha, trivial⟩) h hl).1

theorem isSome_modifyFirst? :
    (modifyFirst? p f l).isSome = (l.find? p).any fun a => (f a).isSome := by
  induction l with
  | nil => rfl
  | cons a l ih =>
    rw [modifyFirst?, List.find?_cons]
    cases p a with
    | true => simp
    | false => simp [ih]

/-- Only what a change does to the item that it finds counts. -/
theorem modifyFirst?_congr {g : α → Option (β × α)} (h : ∀ a ∈ l.find? p, f a = g a) :
    modifyFirst? p f l = modifyFirst? p g l := by
  induction l with
  | nil => rfl
  | cons a l ih =>
    rw [modifyFirst?, modifyFirst?]
    rw [List.find?_cons] at h
    cases ha : p a with
    | true => rw [h a (by rw [ha]; rfl), if_pos rfl, if_pos rfl]
    | false =>
      rw [ha] at h
      rw [ih h]
      rfl

/-- Where a second change of the item that was found is one change of it, it is one of the list. -/
theorem modifyFirst?_again {g k : α → Option (β × α)}
    (hf : ∀ a ∈ l.find? p, ∀ b a', f a = some (b, a') → p a' = p a ∧ g a' = k a)
    (h : modifyFirst? p f l = some (b, l')) : modifyFirst? p g l' = modifyFirst? p k l := by
  induction l generalizing l' with
  | nil => cases h
  | cons a l ih =>
    rw [modifyFirst?] at h
    rw [List.find?_cons] at hf
    cases ha : p a with
    | true =>
      rw [ha] at h hf
      obtain ⟨⟨b, a'⟩, hchange, ⟨⟩⟩ := Option.map_eq_some_iff.mp h
      obtain ⟨hp, hg⟩ := hf a rfl b a' hchange
      rw [modifyFirst?, modifyFirst?, hp, ha, hg]
      rfl
    | false =>
      rw [ha] at h hf
      obtain ⟨⟨b, rest⟩, hrest, ⟨⟩⟩ := Option.map_eq_some_iff.mp h
      rw [modifyFirst?, modifyFirst?, ha, ih hf hrest]
      rfl

end List

/-! ## Rows and columns -/

section Tree

variable {row column : String} {blocks blocks' : List Block} {b : β}

theorem onLayout_eq_some {f : RowLayout → Option (β × RowLayout)} {x x' : Block}
    (h : onLayout f x = some (b, x')) :
    ∃ id l l', x = .row id l ∧ x' = .row id l' ∧ f l = some (b, l') := by
  cases x with
  | content c => cases h
  | row id l =>
    obtain ⟨⟨b, l'⟩, hl, ⟨⟩⟩ := Option.map_eq_some_iff.mp h
    exact ⟨id, l, l', rfl, rfl, hl⟩

theorem mem_of_findRow? {l : RowLayout} (h : findRow? row blocks = some l) :
    ∃ id, .row id l ∈ blocks := by
  obtain ⟨x, hx, hrow⟩ := Option.bind_eq_some_iff.mp h
  cases x with
  | content c => cases hrow
  | row id l' =>
    cases hrow
    exact ⟨id, List.mem_of_find?_eq_some hx⟩

theorem findRow?_of_find? {id : String} {l : RowLayout}
    (h : blocks.find? (isRowWith row) = some (.row id l)) : findRow? row blocks = some l := by
  rw [findRow?, h]
  rfl

theorem inRow?_map {f : RowLayout → Option (β × RowLayout)} {v : Block → γ}
    (hf : ∀ id, ∀ l ∈ findRow? row blocks, ∀ b l', f l = some (b, l') →
      v (.row id l') = v (.row id l))
    (h : inRow? row f blocks = some (b, blocks')) : blocks'.map v = blocks.map v := by
  refine modifyFirst?_map (fun x hfind b x' hx => ?_) h
  obtain ⟨id, l, l', rfl, rfl, hl⟩ := onLayout_eq_some hx
  exact hf id l (findRow?_of_find? hfind) b l' hl

theorem inRow?_again {f g k : RowLayout → Option (β × RowLayout)}
    (hf : ∀ l ∈ findRow? row blocks, ∀ b l', f l = some (b, l') → g l' = k l)
    (h : inRow? row f blocks = some (b, blocks')) : inRow? row g blocks' = inRow? row k blocks := by
  refine modifyFirst?_again (fun x hfind b x' hx => ?_) h
  obtain ⟨id, l, l', rfl, rfl, hl⟩ := onLayout_eq_some hx
  refine ⟨rfl, ?_⟩
  rw [onLayout, onLayout, hf l (findRow?_of_find? hfind) b l' hl]

theorem inRow?_flatMap {f : RowLayout → Option (β × RowLayout)} {v : Block → List γ}
    (added : List γ) (taken : β → List γ)
    (hf : ∀ id, ∀ l ∈ findRow? row blocks, ∀ b l', f l = some (b, l') →
      (added ++ v (.row id l)).Perm (taken b ++ v (.row id l')))
    (h : inRow? row f blocks = some (b, blocks')) :
    (added ++ blocks.flatMap v).Perm (taken b ++ blocks'.flatMap v) := by
  refine modifyFirst?_flatMap (fun x hfind b x' hx => ?_) h
  obtain ⟨id, l, l', rfl, rfl, hl⟩ := onLayout_eq_some hx
  exact hf id l (findRow?_of_find? hfind) b l' hl

theorem inRow?_forall {f : RowLayout → Option (β × RowLayout)} {P : Block → Prop}
    (hf : ∀ id, ∀ l ∈ findRow? row blocks, ∀ b l', P (.row id l) → f l = some (b, l') →
      P (.row id l'))
    (h : inRow? row f blocks = some (b, blocks')) (hP : ∀ x ∈ blocks, P x) :
    ∀ x ∈ blocks', P x := by
  refine modifyFirst?_forall (fun x hfind b x' hPx hx => ?_) h hP
  obtain ⟨id, l, l', rfl, rfl, hl⟩ := onLayout_eq_some hx
  exact hf id l (findRow?_of_find? hfind) b l' hPx hl

theorem inLayout?_eq_some {f : Column → Option (β × Column)} {l l' : RowLayout}
    (h : inLayout? column f l = some (b, l')) :
    ∃ columns, modifyFirst? (fun c => c.id == column) f l.columns = some (b, columns) ∧
      l' = { l with columns } := by
  obtain ⟨⟨b, columns⟩, hcolumns, ⟨⟩⟩ := Option.map_eq_some_iff.mp h
  exact ⟨columns, hcolumns, rfl⟩

/-- A change of a column that keeps its identifier keeps all that the identifiers of the columns
    decide. -/
theorem inColumn?_map {f : Column → Option (β × Column)} {v : Block → γ}
    (hv : ∀ id l columns, columns.map Column.id = l.columns.map Column.id →
      v (.row id { l with columns }) = v (.row id l))
    (hf : ∀ c b c', f c = some (b, c') → c'.id = c.id)
    (h : inColumn? row column f blocks = some (b, blocks')) : blocks'.map v = blocks.map v := by
  refine inRow?_map (fun id l _ b l' hl => ?_) h
  obtain ⟨columns, hcolumns, rfl⟩ := inLayout?_eq_some hl
  exact hv id l columns (modifyFirst?_map (fun c _ => hf c) hcolumns)

/-- What a change adds to the view of a column and takes from it, it adds to the view of the tree
    and takes from it. -/
theorem inColumn?_flatMap {f : Column → Option (β × Column)} {v : Block → List γ}
    {w : Column → List γ} {own : String → List γ} {added : List γ} {taken : β → List γ}
    (hv : ∀ id l, v (.row id l) = own id ++ l.columns.flatMap w)
    (hf : ∀ c b c', f c = some (b, c') → (added ++ w c).Perm (taken b ++ w c'))
    (h : inColumn? row column f blocks = some (b, blocks')) :
    (added ++ blocks.flatMap v).Perm (taken b ++ blocks'.flatMap v) := by
  refine inRow?_flatMap added taken (fun id l _ b l' hl => ?_) h
  obtain ⟨columns, hcolumns, rfl⟩ := inLayout?_eq_some hl
  rw [hv, hv]
  calc
    List.Perm _ (own id ++ (added ++ l.columns.flatMap w)) := List.perm_append_comm_assoc _ _ _
    List.Perm _ (own id ++ (taken b ++ columns.flatMap w)) :=
      (modifyFirst?_flatMap (fun c _ => hf c) hcolumns).append_left _
    List.Perm _ _ := List.perm_append_comm_assoc _ _ _

/-! ## Outlines -/

/-- The rows of a tree without what stands in their columns. -/
def outline (blocks : List Block) : List (String × List String) := blocks.filterMap Block.outline?

theorem outline_eq_of_map (h : blocks'.map Block.outline? = blocks.map Block.outline?) :
    outline blocks' = outline blocks := by
  have h' := congrArg (List.filterMap id) h
  rw [List.filterMap_map, List.filterMap_map] at h'
  exact h'

/-- The outline says which columns can be found. -/
theorem isSome_findColumn? :
    (findColumn? row column blocks).isSome =
      ((outline blocks).find? fun r => r.1 == row).any fun r => r.2.contains column := by
  have hrow : ∀ x : Block, isRowWith row x = x.outline?.any fun r => r.1 == row := by
    intro x
    cases x <;> rfl
  rw [outline, List.find?_filterMap, ← funext hrow, findColumn?, findRow?]
  cases h : blocks.find? (isRowWith row) with
  | none => rfl
  | some x =>
    cases x with
    | content c => rfl
    | row id l =>
      simp only [Block.row?, Block.outline?, Block.columnIds, Option.bind_some, Option.map_some,
        Option.any_some, RowLayout.column?, List.contains_eq_mem]
      rw [Bool.eq_iff_iff]
      simp

theorem isSome_inRow? {f : RowLayout → Option (β × RowLayout)} :
    (inRow? row f blocks).isSome = (findRow? row blocks).any fun l => (f l).isSome := by
  rw [inRow?, isSome_modifyFirst?, findRow?]
  cases h : blocks.find? (isRowWith row) with
  | none => rfl
  | some x =>
    cases x with
    | content c => rfl
    | row id l => simp only [Option.any_some, onLayout, Option.isSome_map, Block.row?,
        Option.bind_some]

theorem inColumn?_congr {f g : Column → Option (β × Column)}
    (h : ∀ c ∈ findColumn? row column blocks, f c = g c) :
    inColumn? row column f blocks = inColumn? row column g blocks := by
  refine modifyFirst?_congr fun x hx => ?_
  cases x with
  | content c => rfl
  | row id l =>
    have hcolumn : findColumn? row column blocks = l.column? column := by
      rw [findColumn?, findRow?, hx]
      rfl
    rw [onLayout, onLayout, inLayout?, inLayout?, modifyFirst?_congr fun c hc => h c ?_]
    rw [hcolumn]
    simpa only [RowLayout.column?, beq_eq_decide] using hc

theorem inColumn?_again {f g k : Column → Option (β × Column)}
    (hf : ∀ l ∈ findRow? row blocks, ∀ c ∈ l.columns, ∀ b c', f c = some (b, c') →
      c'.id = c.id ∧ g c' = k c)
    (h : inColumn? row column f blocks = some (b, blocks')) :
    inColumn? row column g blocks' = inColumn? row column k blocks := by
  refine inRow?_again (fun l hl b l' hl' => ?_) h
  obtain ⟨columns, hcolumns, rfl⟩ := inLayout?_eq_some hl'
  rw [inLayout?, inLayout?, modifyFirst?_again (fun c hfind b c' hc => ?_) hcolumns]
  obtain ⟨hid, hg⟩ := hf l hl c (List.mem_of_find?_eq_some hfind) b c' hc
  exact ⟨by rw [hid], hg⟩

theorem isSome_inColumn? {f : Column → Option (β × Column)} :
    (inColumn? row column f blocks).isSome =
      (findColumn? row column blocks).any fun c => (f c).isSome := by
  rw [inColumn?, isSome_inRow?, findColumn?]
  cases findRow? row blocks with
  | none => rfl
  | some l =>
    simp only [Option.any_some, inLayout?, Option.isSome_map, isSome_modifyFirst?,
      Option.bind_some, RowLayout.column?, beq_eq_decide]

/-- A block can be put into every column that can be found. -/
theorem isSome_putIntoColumn? {index : Option Nat} {c : ContentBlock} :
    (putIntoColumn? row column index c blocks).isSome =
      (findColumn? row column blocks).isSome := by
  rw [putIntoColumn?, Option.isSome_map, isSome_inColumn?]
  cases findColumn? row column blocks <;> rfl

/-! ## Moving items -/

theorem take?_perm {id : String} {bs rest : List ContentBlock} {t : ContentBlock}
    (h : take? id bs = some (t, rest)) : bs.Perm (t :: rest) := by
  induction bs generalizing rest with
  | nil => cases h
  | cons b bs ih =>
    rw [take?] at h
    split at h
    · cases h
      rfl
    · obtain ⟨⟨t', rest'⟩, hrest, ⟨⟩⟩ := Option.map_eq_some_iff.mp h
      exact ((ih hrest).cons b).trans (List.Perm.swap t b rest')

theorem insertUpTo_perm (index : Nat) (a : α) (l : List α) :
    (insertUpTo index a l).Perm (a :: l) :=
  List.perm_insertIdx a l (Nat.min_le_right index l.length)

theorem insertAt_perm (index : Option Nat) (a : α) (l : List α) :
    (insertAt index a l).Perm (a :: l) :=
  insertUpTo_perm (index.getD l.length) a l

theorem cons_eraseIdx_perm {l : List α} {i : Nat} {a : α} (h : l[i]? = some a) :
    (a :: l.eraseIdx i).Perm l := by
  obtain ⟨hi, rfl⟩ := List.getElem?_eq_some_iff.mp h
  exact List.getElem_cons_eraseIdx_perm hi

theorem reorder?_perm {origin target : Nat} {l l' : List α}
    (h : reorder? origin target l = some l') : l'.Perm l := by
  rw [reorder?] at h
  split at h
  · cases h
  · rename_i hrange
    obtain ⟨a, ha, rfl⟩ := Option.map_eq_some_iff.mp h
    have hperm := cons_eraseIdx_perm ha
    refine (List.perm_insertIdx a _ ?_).trans hperm
    have hlength := hperm.length_eq
    simp only [Bool.or_eq_true, decide_eq_true_eq, List.length_cons] at hrange hlength
    omega

/-! ## Taking blocks out -/

theorem onBlocks_eq_some {f : List ContentBlock → Option (β × List ContentBlock)} {c c' : Column}
    (h : onBlocks f c = some (b, c')) :
    ∃ bs, f c.blocks = some (b, bs) ∧ c' = { c with blocks := bs } := by
  obtain ⟨⟨b, bs⟩, hbs, ⟨⟩⟩ := Option.map_eq_some_iff.mp h
  exact ⟨bs, hbs, rfl⟩

theorem outline_of_inColumn? {f : Column → Option (β × Column)}
    (hf : ∀ c b c', f c = some (b, c') → c'.id = c.id)
    (h : inColumn? row column f blocks = some (b, blocks')) : outline blocks' = outline blocks := by
  refine outline_eq_of_map (inColumn?_map (fun id l columns hcolumns => ?_) hf h)
  simp only [Block.outline?, Block.row?, Block.columnIds, hcolumns]
  rfl

theorem outline_of_takeFromColumn? {id : String} {t : ContentBlock}
    (h : takeFromColumn? row column id blocks = some (t, blocks')) :
    outline blocks' = outline blocks := by
  refine outline_of_inColumn? (fun c b c' hc => ?_) h
  obtain ⟨bs, -, rfl⟩ := onBlocks_eq_some hc
  rfl

theorem outline_eraseIdx {i : Nat} {c : ContentBlock} (h : blocks[i]? = some (.content c)) :
    outline (blocks.eraseIdx i) = outline blocks := by
  obtain ⟨hi, hget⟩ := List.getElem?_eq_some_iff.mp h
  have hsplit : blocks = blocks.take i ++ .content c :: blocks.drop (i + 1) := by
    rw [← hget, ← List.drop_eq_getElem_cons hi, List.take_append_drop]
  have herase : blocks.eraseIdx i = blocks.take i ++ blocks.drop (i + 1) :=
    List.eraseIdx_eq_take_drop_succ _ _
  have hnone : (Block.content c).outline? = none := rfl
  rw [herase]
  conv_rhs => rw [hsplit]
  simp only [outline, List.filterMap_append, List.filterMap_cons_none hnone]

end Tree

end Editing

end Letterpress
