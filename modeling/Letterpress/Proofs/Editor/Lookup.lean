/-
  Blocks as they are looked up.

  * `standing tree` lists all blocks with their places, in the order in which they are looked up:
    those at the top level, and then by rows and columns those in columns.  `locate?` is the first
    one of an identifier.
  * `standsAt_top`, `standsAt_nested`: the block stands at its place.
  * `update_hits_located`: an update changes the block that is looked up, and nothing else.
-/
import Letterpress.Proofs.Editor.Finding

namespace Letterpress

open Editing

namespace Editing

/-! ## Blocks in order -/

/-- The block that is found. -/
def Found.block : Found → Block
  | .top b => b
  | .nested c => .content c

/-- Its identifier. -/
def Found.id (f : Found) : String := f.block.id

/-- The blocks of a column. -/
def standingInColumn (row column : Nat) (bs : List ContentBlock) : List (Place × Found) :=
  bs.zipIdx.map fun (b, index) => (.column row column index, .nested b)

/-- The blocks in the columns of a row. -/
def standingInRow (row : Nat) (columns : List Column) : List (Place × Found) :=
  columns.zipIdx.flatMap fun (c, column) => standingInColumn row column c.blocks

/-- The blocks in the columns of a block. -/
def standingIn (row : Nat) : Block → List (Place × Found)
  | .content _ => []
  | .row _ l => standingInRow row l.columns

/-- The blocks at the top level. -/
def standingAtTop (tree : List Block) : List (Place × Found) :=
  tree.zipIdx.map fun (b, index) => (.canvas index, .top b)

/-- All blocks of a tree: those at the top level first, then those in columns. -/
def standing (tree : List Block) : List (Place × Found) :=
  standingAtTop tree ++ tree.zipIdx.flatMap fun (b, row) => standingIn row b

/-- The first block of an identifier, with its place. -/
def locate? (id : String) (tree : List Block) : Option (Place × Found) :=
  (standing tree).find? fun x => x.2.id == id

section

variable {α β γ : Type}

/-- A view of the items of a list in which their indices do not count. -/
theorem map_flatMap_zipIdx {g : α × Nat → List β} {w : β → γ} {v : α → List γ}
    (h : ∀ a i, (g (a, i)).map w = v a) (l : List α) (start : Nat) :
    ((l.zipIdx start).flatMap g).map w = l.flatMap v := by
  induction l generalizing start with
  | nil => rfl
  | cons a l ih =>
    rw [List.zipIdx_cons, List.flatMap_cons, List.map_append, h, ih, List.flatMap_cons]

theorem map_map_zipIdx {g : α × Nat → β} {w : β → γ} {v : α → γ}
    (h : ∀ a i, w (g (a, i)) = v a) (l : List α) (start : Nat) :
    ((l.zipIdx start).map g).map w = l.map v := by
  induction l generalizing start with
  | nil => rfl
  | cons a l ih => rw [List.zipIdx_cons, List.map_cons, List.map_cons, h, ih, List.map_cons]

end

variable {id : String} {tree before after : List Block} {b : Block}

section

variable {α : Type} {name : α → String} {l : List α}

theorem beq_of_notMem (h : id ∉ l.map name) : ∀ a ∈ l, (name a == id) = false := by
  intro a ha
  rw [beq_eq_false_iff_ne]
  rintro rfl
  exact h (List.mem_map_of_mem ha)

theorem find?_of_notMem {ids : List String} (hids : l.map name = ids) (h : id ∉ ids) :
    l.find? (fun a => name a == id) = none := by
  subst hids
  refine List.find?_eq_none.mpr fun a ha => ?_
  rw [beq_of_notMem h a ha]
  exact Bool.false_ne_true

end

theorem ids_standingAtTop (tree : List Block) :
    (standingAtTop tree).map (·.2.id) = tree.map Block.id :=
  map_map_zipIdx (fun _ _ => rfl) tree 0

theorem ids_standingInColumn (row column : Nat) (bs : List ContentBlock) :
    (standingInColumn row column bs).map (·.2.id) = bs.map (·.id) :=
  map_map_zipIdx (fun _ _ => rfl) bs 0

theorem ids_standingInRow (row : Nat) (columns : List Column) :
    (standingInRow row columns).map (·.2.id) = columns.flatMap fun c => c.blocks.map (·.id) :=
  map_flatMap_zipIdx (fun c column => ids_standingInColumn row column c.blocks) columns 0

theorem ids_standingIn (row : Nat) (b : Block) :
    (standingIn row b).map (·.2.id) = b.nestedIds := by
  cases b with
  | content c => rfl
  | row rowId l => exact ids_standingInRow row l.columns

/-- The identifiers of all blocks are those at the top level and those in columns. -/
theorem ids_standing (tree : List Block) :
    (standing tree).map (·.2.id) = tree.map Block.id ++ tree.flatMap Block.nestedIds := by
  have hnested : (tree.zipIdx.flatMap fun (b, row) => standingIn row b).map (·.2.id) =
      tree.flatMap Block.nestedIds :=
    map_flatMap_zipIdx (fun b row => ids_standingIn row b) tree 0
  rw [standing, List.map_append, ids_standingAtTop, hnested]

/-- Every block of the tree is looked at. -/
theorem locate?_eq_none_iff : locate? id tree = none ↔ id ∉ tree.flatMap Block.ids := by
  have hids : id ∈ tree.flatMap Block.ids ↔ id ∈ (standing tree).map (·.2.id) := by
    simp only [ids_standing, List.mem_append, List.mem_flatMap, List.mem_map, Block.ids_eq,
      List.mem_cons]
    grind
  rw [hids, locate?]
  refine ⟨fun h hmem => ?_, fun h => find?_of_notMem rfl h⟩
  obtain ⟨x, hx, rfl⟩ := List.mem_map.mp hmem
  exact List.find?_eq_none.mp h x hx (beq_self_eq_true _)

/-! ## Blocks at the top level -/

theorem standingAtTop_append_cons : standingAtTop (before ++ b :: after) =
    standingAtTop before ++ (.canvas before.length, .top b) ::
      (after.zipIdx (before.length + 1)).map fun (b, index) => (.canvas index, .top b) := by
  rw [standingAtTop, List.zipIdx_append, List.zipIdx_cons, List.map_append, List.map_cons,
    Nat.zero_add]
  rfl

/-- The first block of an identifier at the top level is the one that is looked up. -/
theorem locate?_top (hb : b.id = id) (hbefore : id ∉ before.map Block.id) :
    locate? id (before ++ b :: after) = some (.canvas before.length, .top b) := by
  have hfirst : (Found.top b).id = id := hb
  rw [locate?, standing, standingAtTop_append_cons, List.append_assoc, List.find?_append,
    find?_of_notMem (ids_standingAtTop before) hbefore, Option.none_or, List.cons_append,
    List.find?_cons_of_pos (by simpa using hfirst)]

/-! ## Blocks in columns -/

/-- The place in the column is the first one of an identifier in all columns. -/
structure Slot.First (s : Slot) (above : List ContentBlock) (id : String) : Prop where
  before : id ∉ s.before.flatMap Block.nestedIds
  left : id ∉ s.left.flatMap fun c => c.blocks.map (·.id)
  above : id ∉ above.map (·.id)

section

variable {s : Slot} {above below : List ContentBlock} {c : ContentBlock}

theorem Slot.exists_standing_fill (s : Slot) (above : List ContentBlock) (c : ContentBlock)
    (below : List ContentBlock) : ∃ rest,
      ((s.fill (above ++ c :: below)).zipIdx.flatMap fun (b, row) => standingIn row b) =
        (s.before.zipIdx.flatMap fun (b, row) => standingIn row b) ++
          (standingInRow s.before.length s.left ++
            (standingInColumn s.before.length s.left.length above ++
              (s.place above.length, .nested c) :: rest)) := by
  constructor
  simp only [fill, row, standingIn, standingInRow, standingInColumn, List.zipIdx_append,
    List.zipIdx_cons, List.flatMap_append, List.flatMap_cons, List.map_append, List.map_cons,
    List.append_assoc, List.cons_append, Nat.zero_add]
  rfl

/-- A block in a column is looked up when there is none at the top level. -/
theorem Slot.First.locate? (h : s.First above id) (hc : c.id = id)
    (htop : id ∉ (s.fill (above ++ c :: below)).map Block.id) :
    locate? id (s.fill (above ++ c :: below)) = some (s.place above.length, .nested c) := by
  obtain ⟨rest, hcut⟩ := s.exists_standing_fill above c below
  have hfirst : (Found.nested c).id = id := hc
  have hbefore : (s.before.zipIdx.flatMap fun (b, row) => standingIn row b).map (·.2.id) =
      s.before.flatMap Block.nestedIds :=
    map_flatMap_zipIdx (fun b row => ids_standingIn row b) s.before 0
  rw [Editing.locate?, standing, hcut, List.find?_append, List.find?_append, List.find?_append,
    List.find?_append, find?_of_notMem (ids_standingAtTop _) htop,
    find?_of_notMem hbefore h.before, find?_of_notMem (ids_standingInRow _ _) h.left,
    find?_of_notMem (ids_standingInColumn _ _ _) h.above, Option.none_or, Option.none_or,
    Option.none_or, Option.none_or, List.find?_cons_of_pos (by simpa using hfirst)]

/-! ## Looking up and updating -/

theorem findNested?_eq_none (h : id ∉ b.nestedIds) : findNested? id b = none := by
  rwa [← isSome_findNested?, Bool.not_eq_true, Option.isSome_eq_false_iff,
    Option.isNone_iff_eq_none] at h

theorem findAnywhere?_top (hb : b.id = id) (hbefore : id ∉ before.map Block.id) :
    findAnywhere? id (before ++ b :: after) = some (.top b) := by
  rw [findAnywhere?, find?_append_cons (beq_of_notMem hbefore) (by simpa using hb)]

theorem updateAnywhere?_top {updates : Members} (hb : b.id = id)
    (hbefore : id ∉ before.map Block.id) :
    updateAnywhere? id updates (before ++ b :: after) =
      (b.mergeProps? updates).map fun b' => before ++ b' :: after := by
  have hid : (b.id == id) = true := by simpa using hb
  have hany : ((before ++ b :: after).any fun b => b.id == id) = true := by simp [hid]
  rw [updateAnywhere?, if_pos hany, modifyFirst?_append_cons (beq_of_notMem hbefore) hid,
    Option.map_map, Option.map_map]
  rfl

namespace Slot.First

theorem beq_above (h : s.First above id) : ∀ x ∈ above, (x.id == id) = false :=
  beq_of_notMem h.above

theorem findColumn? (h : s.First above id) (hc : c.id = id) :
    Column.find? { s.column with blocks := above ++ c :: below } id = some c :=
  find?_append_cons h.beq_above (by simpa using hc)

theorem findColumn?_left (h : s.First above id) : ∀ x ∈ s.left, Column.find? x id = none :=
  fun x hx => find?_of_notMem rfl fun hid => h.left (List.mem_flatMap.mpr ⟨x, hx, hid⟩)

theorem findNested? (h : s.First above id) (hc : c.id = id) :
    findNested? id (.row s.rowId (s.row (above ++ c :: below))) = some c := by
  rw [Editing.findNested?, Block.row?, Option.bind_some, row, List.findSome?_append,
    List.findSome?_eq_none_iff.mpr h.findColumn?_left, Option.none_or, List.findSome?_cons,
    h.findColumn? hc]

theorem findNested?_before (h : s.First above id) :
    ∀ x ∈ s.before, Editing.findNested? id x = none :=
  fun x hx => findNested?_eq_none fun hid => h.before (List.mem_flatMap.mpr ⟨x, hx, hid⟩)

theorem findAnywhere? (h : s.First above id) (hc : c.id = id)
    (htop : id ∉ (s.fill (above ++ c :: below)).map Block.id) :
    findAnywhere? id (s.fill (above ++ c :: below)) = some (.nested c) := by
  rw [Editing.findAnywhere?, find?_of_notMem rfl htop, fill, List.findSome?_append,
    List.findSome?_eq_none_iff.mpr h.findNested?_before, Option.none_or, List.findSome?_cons,
    h.findNested? hc]
  rfl

theorem updateNested? (h : s.First above id) (hc : c.id = id) (updates : Members) :
    updateNested? id updates (.row s.rowId (s.row (above ++ c :: below))) =
      some ((), .row s.rowId
        (s.row (above ++ { c with props := c.props.extend updates } :: below))) := by
  have hcolumn : (Column.find? { s.column with blocks := above ++ c :: below } id).isSome = true :=
    by rw [h.findColumn? hc]; rfl
  have hleft : ∀ x ∈ s.left, (Column.find? x id).isSome = false := fun x hx => by
    rw [h.findColumn?_left x hx]
    rfl
  have hid : (c.id == id) = true := by simpa using hc
  rw [Editing.updateNested?, onLayout, row, modifyFirst?_append_cons hleft hcolumn, onBlocks,
    modifyFirst?_append_cons h.beq_above hid]
  rfl

theorem updateAnywhere? (h : s.First above id) (hc : c.id = id)
    (htop : id ∉ (s.fill (above ++ c :: below)).map Block.id) (updates : Members) :
    updateAnywhere? id updates (s.fill (above ++ c :: below)) =
      some (s.fill (above ++ { c with props := c.props.extend updates } :: below)) := by
  have hany : ¬ ((s.fill (above ++ c :: below)).any fun b => b.id == id) = true := by
    rw [List.any_eq_true]
    rintro ⟨x, hx, heq⟩
    exact htop (beq_iff_eq.mp heq ▸ List.mem_map_of_mem hx)
  have hbefore : ∀ x ∈ s.before, (Editing.findNested? id x).isSome = false := fun x hx => by
    rw [h.findNested?_before x hx]
    rfl
  have hrow : (Editing.findNested? id (.row s.rowId (s.row (above ++ c :: below)))).isSome =
      true := by
    rw [h.findNested? hc]
    rfl
  rw [Editing.updateAnywhere?, if_neg hany, fill, modifyFirst?_append_cons hbefore hrow,
    h.updateNested? hc]
  rfl

end Slot.First

end

/-! ## The first block of an identifier -/

theorem exists_first {α : Type} {p : α → Prop} {l : List α} (h : ∃ a ∈ l, p a) :
    ∃ before a after, l = before ++ a :: after ∧ p a ∧ ∀ x ∈ before, ¬ p x := by
  induction l with
  | nil =>
    obtain ⟨a, ha, -⟩ := h
    cases ha
  | cons x l ih =>
    by_cases hx : p x
    · exact ⟨[], x, l, rfl, hx, fun y hy => absurd hy List.not_mem_nil⟩
    · have hrest : ∃ a ∈ l, p a := by simpa [hx] using h
      obtain ⟨before, a, after, rfl, ha, hbefore⟩ := ih hrest
      exact ⟨x :: before, a, after, rfl, ha, List.forall_mem_cons.mpr ⟨hx, hbefore⟩⟩

theorem exists_first_of_mem_map {α : Type} {name : α → String} {l : List α}
    (h : id ∈ l.map name) : ∃ before a after, l = before ++ a :: after ∧ name a = id ∧
      id ∉ before.map name := by
  obtain ⟨before, a, after, hl, ha, hbefore⟩ := exists_first (List.mem_map.mp h)
  refine ⟨before, a, after, hl, ha, fun hmem => ?_⟩
  obtain ⟨x, hx, heq⟩ := List.mem_map.mp hmem
  exact hbefore x hx heq

theorem exists_first_of_mem_flatMap {α : Type} {names : α → List String} {l : List α}
    (h : id ∈ l.flatMap names) : ∃ before a after, l = before ++ a :: after ∧ id ∈ names a ∧
      id ∉ before.flatMap names := by
  obtain ⟨before, a, after, hl, ha, hbefore⟩ := exists_first (List.mem_flatMap.mp h)
  refine ⟨before, a, after, hl, ha, fun hmem => ?_⟩
  obtain ⟨x, hx, hid⟩ := List.mem_flatMap.mp hmem
  exact hbefore x hx hid

/-- An identifier of a block in a column has its first place in all columns. -/
theorem exists_slot_first (h : id ∈ tree.flatMap Block.nestedIds) :
    ∃ s above c below, Slot.First s above id ∧ c.id = id ∧ tree = s.fill (above ++ c :: below) := by
  obtain ⟨before, b, after, rfl, hb, hbefore⟩ := exists_first_of_mem_flatMap h
  cases b with
  | content c => cases hb
  | row rowId l =>
    obtain ⟨left, col, right, hcolumns, hcol, hleft⟩ := exists_first_of_mem_flatMap hb
    obtain ⟨above, c, below, hblocks, hc, habove⟩ := exists_first_of_mem_map hcol
    refine ⟨⟨before, after, rowId, l, left, right, col⟩, above, c, below,
      ⟨hbefore, hleft, habove⟩, hc, ?_⟩
    rw [Slot.fill, Slot.row, ← hblocks, ← hcolumns]

theorem updateAnywhere?_eq_none {updates : Members} (h : id ∉ tree.flatMap Block.ids) :
    updateAnywhere? id updates tree = none := by
  have hnone : ∀ x ∈ tree, id ∉ x.ids := fun x hx hid => h (List.mem_flatMap.mpr ⟨x, hx, hid⟩)
  have hany : ¬ (tree.any fun b => b.id == id) = true := by
    rw [List.any_eq_true]
    rintro ⟨x, hx, heq⟩
    exact hnone x hx (beq_iff_eq.mp heq ▸ x.id_mem_ids)
  have hfind : tree.find? (fun b => (findNested? id b).isSome) = none := by
    refine List.find?_eq_none.mpr fun x hx hsome => hnone x hx ?_
    rw [Block.ids_eq]
    exact List.mem_cons_of_mem _ (isSome_findNested?.mp hsome)
  have hmodify : modifyFirst? (fun b => (findNested? id b).isSome) (updateNested? id updates) tree =
      none := by
    rw [← Option.not_isSome_iff_eq_none, isSome_modifyFirst?, hfind]
    exact Bool.false_ne_true
  rw [updateAnywhere?, if_neg hany, hmodify]
  rfl

end Editing

/-! ## Updates -/

/-- The operation is accepted and puts a block at a place of a tree; nothing else changes but that
    there are changes to save. -/
def Operation.PutsAt (op : Operation) (e : Editor) (supply : Supply) (b : Block) (p : Place)
    (others : List Block) : Prop :=
  ∃ tree, StandsAt b p others tree ∧
    op.run e supply = ((.accepted, { e with blocks := tree, dirty := true }), supply)

section

variable {e : Editor} {supply : Supply} {id : String} {updates : Members}

theorem Operation.run_update_none (h : updateAnywhere? id updates e.blocks = none) :
    (update id updates).run e supply = ((.refused, e), supply) := by
  have hrun : (update id updates).run e supply = (e.settle (e.update? id updates), supply) := rfl
  rw [hrun, Editor.update?, h]
  rfl

theorem Operation.run_update_some {tree : List Block}
    (h : updateAnywhere? id updates e.blocks = some tree) : (update id updates).run e supply =
      ((.accepted, { e with blocks := tree, dirty := true }), supply) := by
  have hrun : (update id updates).run e supply = (e.settle (e.update? id updates), supply) := rfl
  rw [hrun, Editor.update?, h]
  rfl

section

variable {before after : List Block} {b : Block} (hcut : e.blocks = before ++ b :: after)
  (hb : b.id = id) (hbefore : id ∉ before.map Block.id)

include hcut hb hbefore

theorem Operation.putsAt_top {b' : Block} (hmerge : b.mergeProps? updates = some b') :
    (update id updates).PutsAt e supply b' (.canvas before.length) (before ++ after) := by
  refine ⟨_, .canvas b' before after, run_update_some ?_⟩
  rw [hcut, updateAnywhere?_top hb hbefore, hmerge]
  rfl

theorem Operation.refused_top (hmerge : b.mergeProps? updates = none) :
    (update id updates).run e supply = ((.refused, e), supply) := by
  refine run_update_none ?_
  rw [hcut, updateAnywhere?_top hb hbefore, hmerge]
  rfl

end

theorem Editing.Slot.First.putsAt {s : Slot} {above below : List ContentBlock} {c : ContentBlock}
    (h : s.First above id) (hcut : e.blocks = s.fill (above ++ c :: below)) (hc : c.id = id)
    (htop : id ∉ e.blocks.map Block.id) :
    (Operation.update id updates).PutsAt e supply
      (.content { c with props := c.props.extend updates }) (s.place above.length)
      (s.fill (above ++ below)) := by
  refine ⟨_, .column _ s above below, Operation.run_update_some ?_⟩
  rw [hcut] at htop ⊢
  exact h.updateAnywhere? hc htop updates

end

/-- **An update hits exactly the block that is looked up**: the first one of the identifier, at the
    top level if there is one, and else in the columns in order.  A content block keeps its
    identifier and its kind and has the props set over its own, key by key.  A row becomes what its
    fields with the props set over them are read as; if they are not those of a row, the update is
    refused.  All other blocks stay as they are, and so does the rest of the session. -/
theorem update_hits_located (e : Editor) (id : String) (updates : Members) (supply : Supply) :
    findAnywhere? id e.blocks = (locate? id e.blocks).map (·.2) ∧
      (locate? id e.blocks = none ↔ id ∉ e.blocks.flatMap Block.ids) ∧
      match locate? id e.blocks with
      | none => (Operation.update id updates).run e supply = ((.refused, e), supply)
      | some (p, f) => f.id = id ∧ ∃ others, StandsAt f.block p others e.blocks ∧
        match f.block with
        | .content c =>
          (Operation.update id updates).PutsAt e supply
              (.content { c with props := c.props.extend updates }) p others ∧
            (updates.Ordered → ∀ key,
              (c.props.extend updates).get? key = (updates.get? key).or (c.props.get? key))
        | .row rowId l =>
          match RowLayout.ofMembers? (l.toMembers.extend updates) with
          | none => (Operation.update id updates).run e supply = ((.refused, e), supply)
          | some l' =>
            (Operation.update id updates).PutsAt e supply (.row rowId l') p others := by
  by_cases htop : id ∈ e.blocks.map Block.id
  · -- the first one at the top level
    obtain ⟨before, b, after, hcut, hb, hbefore⟩ := exists_first_of_mem_map htop
    have hlocate : locate? id e.blocks = some (.canvas before.length, .top b) := by
      rw [hcut, locate?_top hb hbefore]
    have hfind : findAnywhere? id e.blocks = some (.top b) := by
      rw [hcut, findAnywhere?_top hb hbefore]
    refine ⟨by rw [hlocate, hfind]; rfl, locate?_eq_none_iff, ?_⟩
    rw [hlocate]
    refine ⟨hb, before ++ after, by rw [hcut]; exact .canvas b before after, ?_⟩
    cases b with
    | content c =>
      refine ⟨Operation.putsAt_top hcut hb hbefore rfl, fun hordered key => ?_⟩
      exact Dict.get?_extend_of_ordered hordered c.props key
    | row rowId l =>
      dsimp only [Found.block]
      cases hread : RowLayout.ofMembers? (l.toMembers.extend updates) with
      | none => exact Operation.refused_top hcut hb hbefore (by rw [Block.mergeProps?, hread]; rfl)
      | some l' =>
        exact Operation.putsAt_top hcut hb hbefore (by rw [Block.mergeProps?, hread]; rfl)
  · by_cases hnested : id ∈ e.blocks.flatMap Block.nestedIds
    · -- the first one in the columns
      obtain ⟨s, above, c, below, hfirst, hc, hcut⟩ := exists_slot_first hnested
      have hlocate : locate? id e.blocks = some (s.place above.length, .nested c) := by
        rw [hcut] at htop ⊢
        exact hfirst.locate? hc htop
      have hfind : findAnywhere? id e.blocks = some (.nested c) := by
        rw [hcut] at htop ⊢
        exact hfirst.findAnywhere? hc htop
      refine ⟨by rw [hlocate, hfind]; rfl, locate?_eq_none_iff, ?_⟩
      rw [hlocate]
      refine ⟨hc, s.fill (above ++ below), by rw [hcut]; exact .column c s above below, ?_⟩
      refine ⟨hfirst.putsAt hcut hc htop, fun hordered key => ?_⟩
      exact Dict.get?_extend_of_ordered hordered c.props key
    · -- none
      have hid : id ∉ e.blocks.flatMap Block.ids := by
        simp only [List.mem_map, List.mem_flatMap, Block.ids_eq, List.mem_cons] at htop hnested ⊢
        grind
      have hlocate : locate? id e.blocks = none := locate?_eq_none_iff.mpr hid
      have hfind : findAnywhere? id e.blocks = none := by
        rwa [mem_ids_iff, Bool.not_eq_true, Option.isSome_eq_false_iff,
          Option.isNone_iff_eq_none] at hid
      refine ⟨by rw [hlocate, hfind]; rfl, locate?_eq_none_iff, ?_⟩
      rw [hlocate]
      exact Operation.run_update_none (updateAnywhere?_eq_none hid)

/-- Of two blocks with the same identifier in a column the first one is updated, and a key that is
    not set keeps its value. -/
theorem update_hits_located_of_shared_id :
    let c : ContentBlock := ⟨"a", .text, [("align", .string "left"), ("content", .string "x")]⟩
    let l : RowLayout :=
      ⟨.oneColumn, [⟨"c", "100%", [c, c], none⟩], RowLayout.initialGap, true, .initial⟩
    let e := Editor.start [.row "r" l] .initial
    let supply : Supply := ⟨fun _ => "", 0⟩
    let updates : Members := [("content", .string "y")]
    let props := c.props.extend updates
    updates.Ordered ∧ locate? "a" e.blocks = some (.column 0 0 0, .nested c) ∧
      (∃ others, StandsAt (.content c) (.column 0 0 0) others e.blocks ∧
        (Operation.update "a" updates).PutsAt e supply (.content { c with props })
          (.column 0 0 0) others) ∧
      ∀ key, props.get? key = (updates.get? key).or (c.props.get? key) := by
  intro c l e supply updates props
  have hordered : updates.Ordered := trivial
  have hlocate : locate? "a" e.blocks = some (.column 0 0 0, .nested c) := by rfl
  obtain ⟨-, -, hupdate⟩ := update_hits_located e "a" updates supply
  rw [hlocate] at hupdate
  obtain ⟨-, others, hstands, hputs, hprops⟩ := hupdate
  exact ⟨hordered, hlocate, ⟨others, hstands, hputs⟩, hprops hordered⟩

end Letterpress
