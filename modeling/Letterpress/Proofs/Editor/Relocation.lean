/-
  Operations that move content.

  * `SameHoldings`: two trees hold the same content blocks and the same rows, each as often.
  * `Operation.Moved op old new`: a move has taken one block from its origin to its target, and the
    trees are the same apart from that block.
  * `relocation_keeps_content`: whatever the state, a relocation neither loses nor doubles content,
    and a move that is not refused moves one block.
-/
import Letterpress.Proofs.Editor.Place
import Letterpress.Proofs.Editor.Refusal
import Letterpress.Proofs.Editor.Regrowth

namespace Letterpress

open Minting Editing

/-! ## What a tree holds -/

namespace Block

/-- The block itself if it is a content block, or those in its columns. -/
def contents : Block → List ContentBlock
  | .content b => [b]
  | .row _ l => l.columns.flatMap (·.blocks)

/-- The identifier of a row. -/
def rowIds : Block → List String
  | .content _ => []
  | .row id _ => [id]

end Block

/-- Two trees hold the same content blocks and rows, each as often. -/
structure SameHoldings (old new : List Block) : Prop where
  contents : (new.flatMap Block.contents).Perm (old.flatMap Block.contents)
  rowIds : (new.flatMap Block.rowIds).Perm (old.flatMap Block.rowIds)

namespace SameHoldings

variable {old new : List Block}

theorem refl (tree : List Block) : SameHoldings tree tree := ⟨.refl _, .refl _⟩

/-- Rows that keep their identifiers and their blocks hold what they held. -/
theorem of_inRow? {β : Type} {row : String} {f : RowLayout → Option (β × RowLayout)} {b : β}
    (hf : ∀ l ∈ findRow? row old, ∀ b l', f l = some (b, l') →
      l'.columns.flatMap (·.blocks) = l.columns.flatMap (·.blocks))
    (h : inRow? row f old = some (b, new)) : SameHoldings old new := by
  have hcontents : new.map Block.contents = old.map Block.contents :=
    inRow?_map (fun _ l hl b l' hl' => hf l hl b l' hl') h
  have hrowIds : new.map Block.rowIds = old.map Block.rowIds :=
    inRow?_map (fun _ _ _ _ _ _ => rfl) h
  constructor
  · rw [List.flatMap_def, List.flatMap_def, hcontents]
  · rw [List.flatMap_def, List.flatMap_def, hrowIds]

end SameHoldings

/-- A tree with a block more holds what that block holds, and nothing else. -/
theorem Editing.StandsAt.holdings_perm {b : Block} {p : Place} {rest full : List Block}
    (h : StandsAt b p rest full) :
    (full.flatMap Block.contents).Perm (b.contents ++ rest.flatMap Block.contents) ∧
      (full.flatMap Block.rowIds).Perm (b.rowIds ++ rest.flatMap Block.rowIds) := by
  have hcontents : ∀ id l, (Block.row id l).contents =
      [] ++ l.columns.flatMap fun c => c.blocks.flatMap fun b => [b] := by
    intro id l
    simp [Block.contents]
  have hrowIds : ∀ id l, (Block.row id l).rowIds =
      [id] ++ l.columns.flatMap fun c => c.blocks.flatMap fun _ => [] := by
    intro id l
    simp [Block.rowIds]
  exact ⟨h.flatMap_perm hcontents fun _ => rfl, h.flatMap_perm hrowIds fun _ => rfl⟩

/-! ## Moves -/

namespace Operation

/-- Where the block of a move stands before it. -/
def origin? (op : Operation) (tree : List Block) : Option Place :=
  match op with
  | move origin _ => some (.canvas origin)
  | moveWithinColumn row column origin _ => Place.inColumn? row column (fun _ => some origin) tree
  | moveNested row column _ _ id _ | moveToCanvas row column id _ =>
    Place.inColumn? row column (fun bs => bs.findIdx? fun b => b.id == id) tree
  | moveIntoColumn id _ _ _ => (tree.findIdx? fun b => b.id == id).map .canvas
  | _ => none

/-- Where the block of a move ends up among the others: at the index that is asked for, or at the
    end of a list that is too short for it. -/
def target? (op : Operation) (others : List Block) : Option Place :=
  match op with
  | move _ target => some (.canvas target)
  | moveWithinColumn row column _ target =>
    Place.inColumn? row column (fun _ => some target) others
  | moveNested _ _ row column _ index | moveIntoColumn _ row column index =>
    Place.inColumn? row column (fun bs => some (min index bs.length)) others
  | moveToCanvas _ _ _ index => some (.canvas (min index others.length))
  | _ => none

/-- The move has taken one block from its origin to its target; all others stand as they stood. -/
def Moved (op : Operation) (old new : List Block) : Prop :=
  ∃ b others origin target, op.origin? old = some origin ∧ op.target? others = some target ∧
    StandsAt b origin others old ∧ StandsAt b target others new

theorem Moved.sameHoldings {op : Operation} {old new : List Block} (h : op.Moved old new) :
    SameHoldings old new := by
  obtain ⟨b, others, origin, target, -, -, hold, hnew⟩ := h
  exact ⟨hnew.holdings_perm.1.trans hold.holdings_perm.1.symm,
    hnew.holdings_perm.2.trans hold.holdings_perm.2.symm⟩

end Operation

namespace Editor

variable {e e' : Editor} {row column toRow toColumn id : String} {origin target index : Nat}

theorem move?_moved (h : e.move? origin target = some e') :
    (Operation.move origin target).Moved e.blocks e'.blocks := by
  obtain ⟨blocks, hmove, rfl⟩ := Option.map_eq_some_iff.mp h
  obtain ⟨b, left, right, left', right', hold, rfl, hrest, rfl, rfl⟩ := exists_cut_of_reorder? hmove
  refine ⟨b, left ++ right, _, _, rfl, rfl, ?_, ?_⟩
  · rw [hold]
    exact .canvas b left right
  · rw [hrest]
    exact .canvas b left' right'

/-- A move within a column is a move in its slot. -/
theorem exists_slot_of_moveWithinColumn?
    (h : e.moveWithinColumn? row column origin target = some e') :
    ∃ s : Slot, s.Named row column ∧ ∃ bs bs', e.blocks = s.fill bs ∧
      reorder? origin target bs = some bs' ∧ e' = e.record (s.fill bs') := by
  obtain ⟨⟨u, blocks⟩, hmove, rfl⟩ := Option.map_eq_some_iff.mp h
  obtain ⟨s, hs, bs, bs', hold, rfl, hbs⟩ := exists_slot_of_inColumn? hmove
  obtain ⟨moved, hmoved, ⟨⟩⟩ := Option.map_eq_some_iff.mp hbs
  exact ⟨s, hs, bs, bs', hold, hmoved, rfl⟩

theorem moveWithinColumn?_moved (h : e.moveWithinColumn? row column origin target = some e') :
    (Operation.moveWithinColumn row column origin target).Moved e.blocks e'.blocks := by
  obtain ⟨s, hs, bs, bs', hold, hmoved, rfl⟩ := exists_slot_of_moveWithinColumn? h
  obtain ⟨b, left, right, left', right', rfl, rfl, hrest, rfl, rfl⟩ := exists_cut_of_reorder? hmoved
  refine ⟨.content b, s.fill (left ++ right), s.place left.length, s.place left'.length, ?_, ?_,
    ?_, ?_⟩
  · rw [Operation.origin?, hold, hs.inColumn?]
    rfl
  · rw [Operation.target?, hs.inColumn?]
    rfl
  · rw [hold]
    exact .column b s left right
  · rw [hrest]
    exact .column b s left' right'

theorem moveNested?_moved (h : e.moveNested? row column toRow toColumn id index = some e') :
    (Operation.moveNested row column toRow toColumn id index).Moved e.blocks e'.blocks := by
  obtain ⟨blocks, hmove, rfl⟩ := Option.map_eq_some_iff.mp h
  simp only [Editing.moveNested?, Option.bind_eq_bind, Option.bind_eq_some_iff] at hmove
  obtain ⟨_, -, ⟨b, others⟩, htake, hput⟩ := hmove
  obtain ⟨p, hp, hold⟩ := standsAt_of_takeFromColumn? htake
  obtain ⟨q, hq, hnew⟩ := standsAt_of_putIntoColumn? hput
  exact ⟨.content b, others, p, q, hp, hq, hold, hnew⟩

theorem moveIntoColumn?_moved (h : e.moveIntoColumn? id row column index = some e') :
    (Operation.moveIntoColumn id row column index).Moved e.blocks e'.blocks := by
  obtain ⟨origin, b, blocks, hfind, hb, hput, rfl⟩ := moveIntoColumn?_eq_some h
  obtain ⟨left, right, hold, herase, hlen⟩ := exists_cut_of_eraseIdx hb
  obtain ⟨q, hq, hnew⟩ := standsAt_of_putIntoColumn? hput
  refine ⟨.content b, e.blocks.eraseIdx origin, .canvas origin, q, ?_, hq, ?_, hnew⟩
  · rw [Operation.origin?, hfind]
    rfl
  · rw [herase, hold, ← hlen]
    exact .canvas (.content b) left right

theorem moveToCanvas?_moved (h : e.moveToCanvas? row column id index = some e') :
    (Operation.moveToCanvas row column id index).Moved e.blocks e'.blocks := by
  obtain ⟨⟨b, others⟩, htake, rfl⟩ := Option.map_eq_some_iff.mp h
  obtain ⟨p, hp, hold⟩ := standsAt_of_takeFromColumn? htake
  exact ⟨.content b, others, p, .canvas (min index others.length), hp, rfl, hold,
    standsAt_insertUpTo index (.content b) others⟩

/-! ## Column layouts -/

theorem applyPreset?_sameHoldings (row : String) (preset : Preset) :
    Ensures (e.applyPreset? row preset) fun changed =>
      ∀ e' ∈ changed, SameHoldings e.blocks e'.blocks := by
  rw [applyPreset?]
  split
  · exact ensures_pure (by rintro e' ⟨⟩)
  · rename_i l hl
    have hkeeps : Ensures (Editing.applyPreset preset l) fun l' =>
        l'.columns.flatMap (·.blocks) = l.columns.flatMap (·.blocks) := by
      intro s
      obtain ⟨minted, -, h, -⟩ := yields_applyPreset preset l s
      exact h
    refine hkeeps.bind fun l' h => ensures_pure fun e' he' => ?_
    obtain ⟨⟨u, blocks⟩, hset, rfl⟩ := Option.map_eq_some_iff.mp he'
    refine .of_inRow? (fun k hk u k' hk' => ?_) hset
    obtain rfl : k = l := Option.some.inj (hk.symm.trans hl)
    cases hk'
    exact h

theorem setWidths?_sameHoldings {widths : List String} (h : e.setWidths? row widths = some e') :
    SameHoldings e.blocks e'.blocks := by
  obtain ⟨⟨u, blocks⟩, hset, rfl⟩ := Option.map_eq_some_iff.mp h
  refine .of_inRow? (fun l _ u l' hl => ?_) hset
  cases hl
  rw [List.flatMap_def, List.flatMap_def]
  exact congrArg List.flatten (map_withWidths (fun _ _ => rfl) widths l.columns)

end Editor

/-! ## Drops -/

namespace DragSource

/-- A block of the document is dragged, and not a new one. -/
def isBlock : DragSource → Bool
  | .palette _ => false
  | .canvas _ | .nested .. => true

/-- The move that a drop stands for.  In the list where the block is, the index counts the block
    itself. -/
def moveTo? (source : DragSource) (target : DropTarget) (tree : List Block) : Option Operation :=
  match source, target with
  | .palette _, _ => none
  | .canvas id, .canvas index =>
    (tree.findIdx? fun b => b.id == id).map fun origin => .move origin (landingIndex origin index)
  | .canvas id, .column row column index => some (.moveIntoColumn id row column index)
  | .nested row column id, .canvas index => some (.moveToCanvas row column id index)
  | .nested row column id, .column toRow toColumn index =>
    if row ≠ toRow || column ≠ toColumn then some (.moveNested row column toRow toColumn id index)
    else do
      let c ← findColumn? row column tree
      let origin ← c.blocks.findIdx? fun b => b.id == id
      return .moveWithinColumn row column origin (landingIndex origin index)

end DragSource

namespace Operation

/-- The operation moves one block: it is a move, or the drop of a block. -/
def movesBlock (op : Operation) (e : Editor) : Bool :=
  match op with
  | move .. | moveWithinColumn .. | moveNested .. | moveIntoColumn .. | moveToCanvas .. => true
  | drop _ => e.drag.source.any DragSource.isBlock
  | _ => false

/-- The move that an operation makes: itself, or the one that a drop stands for. -/
def asMove? (op : Operation) (e : Editor) : Option Operation :=
  match op with
  | move .. | moveWithinColumn .. | moveNested .. | moveIntoColumn .. | moveToCanvas .. => some op
  | drop target => e.drag.source.bind fun source => source.moveTo? target e.blocks
  | _ => none

/-- The operation changes the columns of a row. -/
def relayouts : Operation → Bool
  | applyPreset .. | setWidths .. => true
  | _ => false

end Operation

namespace Editor

variable {e e' : Editor} {row column toRow toColumn id : String} {index : Nat}

theorem dropNested?_moved (h : e.dropNested? row column toRow toColumn id index = some e') :
    ∃ m ∈ (DragSource.nested row column id).moveTo? (.column toRow toColumn index) e.blocks,
      m.Moved e.blocks e'.blocks := by
  rw [dropNested?] at h
  rw [DragSource.moveTo?]
  split at h
  · rename_i hother
    rw [if_pos hother]
    exact ⟨_, rfl, moveNested?_moved h⟩
  · rename_i hsame
    simp only [Option.bind_eq_bind, Option.bind_eq_some_iff] at h
    obtain ⟨c, hc, origin, horigin, h⟩ := h
    rw [if_neg hsame, hc, Option.bind_eq_bind, Option.bind_some, horigin]
    exact ⟨_, rfl, moveWithinColumn?_moved h⟩

theorem dropOn?_moved {source : DragSource} (hsource : source.isBlock = true)
    (target : DropTarget) :
    Ensures (e.dropOn? source target) fun changed =>
      ∀ e' ∈ changed, ∃ m ∈ source.moveTo? target e.blocks, m.Moved e.blocks e'.blocks := by
  match source, target with
  | .palette kind, _ => cases hsource
  | .canvas id, .canvas index =>
    refine ensures_pure fun e' he' => ?_
    simp only [Option.bind_eq_bind, Option.mem_def, Option.bind_eq_some_iff] at he'
    obtain ⟨origin, horigin, h⟩ := he'
    refine ⟨_, ?_, move?_moved h⟩
    rw [DragSource.moveTo?, horigin]
    rfl
  | .canvas id, .column row column index =>
    exact ensures_pure fun e' he' => ⟨_, rfl, moveIntoColumn?_moved he'⟩
  | .nested row column id, .canvas index =>
    exact ensures_pure fun e' he' => ⟨_, rfl, moveToCanvas?_moved he'⟩
  | .nested row column id, .column toRow toColumn index =>
    exact ensures_pure fun e' he' => dropNested?_moved he'

theorem drop_moved {target : DropTarget} (h : (Operation.drop target).movesBlock e = true) :
    Ensures (e.drop target) fun d =>
      (d.1 = true → ∃ m ∈ (Operation.drop target).asMove? e, m.Moved e.blocks d.2.blocks) ∧
        (d.1 = false → d.2.blocks = e.blocks) := by
  rw [drop]
  rw [Operation.movesBlock] at h
  rw [Operation.asMove?]
  cases hsource : e.drag.source with
  | none =>
    rw [hsource] at h
    cases h
  | some source =>
    rw [hsource] at h
    refine (@dropOn?_moved e.cancelDrag source h target).bind fun changed hchanged => ?_
    cases changed with
    | none => exact ensures_pure ⟨by simp, fun _ => rfl⟩
    | some e' => exact ensures_pure ⟨fun _ => hchanged e' rfl, by simp⟩

end Editor

/-! ## Relocations -/

namespace Operation

open Editor

/-- What a relocation does to the tree: it holds what it held, and an accepted move has moved one
    block. -/
structure Relocated (op : Operation) (e : Editor) (r : Answer × Editor) : Prop where
  holdings : SameHoldings e.blocks r.2.blocks
  moved : op.movesBlock e = true → r.1 = .accepted → ∃ m ∈ op.asMove? e, m.Moved e.blocks r.2.blocks

variable {op : Operation} {e : Editor} {changed : Option Editor}

theorem Relocated.of_moved (h : ∀ e' ∈ changed, ∃ m ∈ op.asMove? e, m.Moved e.blocks e'.blocks) :
    op.Relocated e (e.settle changed) := by
  cases changed with
  | none => exact ⟨.refl e.blocks, fun _ hr => by cases hr⟩
  | some e' =>
    obtain ⟨m, hm, hmoved⟩ := h e' rfl
    exact ⟨hmoved.sameHoldings, fun _ _ => ⟨m, hm, hmoved⟩⟩

theorem Relocated.of_sameHoldings (hop : op.movesBlock e = false)
    (h : ∀ e' ∈ changed, SameHoldings e.blocks e'.blocks) :
    op.Relocated e (e.settle changed) := by
  refine ⟨?_, fun hmoves => by rw [hop] at hmoves; cases hmoves⟩
  cases changed with
  | none => exact .refl e.blocks
  | some e' => exact h e' rfl

/-- Each relocation, by what it does. -/
theorem run_relocated (h : op.movesBlock e = true ∨ op.relayouts = true) :
    Ensures (op.run e) (op.Relocated e) := by
  cases op with
  | move origin target =>
    exact ensures_pure (.of_moved fun e' he' => ⟨_, rfl, move?_moved he'⟩)
  | moveWithinColumn row column origin target =>
    exact ensures_pure (.of_moved fun e' he' => ⟨_, rfl, moveWithinColumn?_moved he'⟩)
  | moveNested row column toRow toColumn id index =>
    exact ensures_pure (.of_moved fun e' he' => ⟨_, rfl, moveNested?_moved he'⟩)
  | moveIntoColumn id row column index =>
    exact ensures_pure (.of_moved fun e' he' => ⟨_, rfl, moveIntoColumn?_moved he'⟩)
  | moveToCanvas row column id index =>
    exact ensures_pure (.of_moved fun e' he' => ⟨_, rfl, moveToCanvas?_moved he'⟩)
  | applyPreset row preset =>
    exact (applyPreset?_sameHoldings row preset).bind fun changed hchanged =>
      ensures_pure (.of_sameHoldings rfl hchanged)
  | setWidths row widths =>
    exact ensures_pure (.of_sameHoldings rfl fun e' => setWidths?_sameHoldings)
  | drop target =>
    have hmoves : (drop target).movesBlock e = true := by
      cases h with
      | inl h => exact h
      | inr h => cases h
    refine (drop_moved hmoves).bind fun d hd => ?_
    obtain ⟨accepted, e'⟩ := d
    cases accepted with
    | true =>
      obtain ⟨m, hm, hmoved⟩ := hd.1 rfl
      exact ensures_pure ⟨hmoved.sameHoldings, fun _ _ => ⟨m, hm, hmoved⟩⟩
    | false =>
      refine ensures_pure ⟨?_, fun _ hr => by cases hr⟩
      have hblocks : e'.blocks = e.blocks := hd.2 rfl
      rw [hblocks]
      exact .refl e.blocks
  | _ => rcases h with h | h <;> cases h

/-- **A relocation neither loses nor doubles content**, whatever the state and the arguments: moves,
    drops of blocks and changes of columns keep all content blocks and all rows.  An accepted move
    takes one block to its target; every other block stays where it is among the others.  The
    program that takes the block out before it puts it in does the same. -/
theorem relocation_keeps_content (h : op.movesBlock e = true ∨ op.relayouts = true) (s : Supply) :
    SameHoldings e.blocks (op.run e s).1.2.blocks ∧
      (op.movesBlock e = true → (op.run e s).1.1 = .accepted →
        ∃ m ∈ op.asMove? e, m.Moved e.blocks (op.run e s).1.2.blocks) ∧
      op.inPlace e s = op.run e s := by
  obtain ⟨hholdings, hmoved⟩ := run_relocated h s
  exact ⟨hholdings, hmoved, by rw [inPlace_eq_run]⟩

/-- Two blocks of one identifier: the first one of the first column is dropped far below the end of
    the other column. -/
theorem relocation_keeps_content_of_doubled_id :
    let twin : ContentBlock := ⟨"a", .text, []⟩
    let other : ContentBlock := ⟨"a", .image, []⟩
    let columns : List Column := [⟨"c", "50%", [twin, other], none⟩, ⟨"d", "50%", [other], none⟩]
    let row : Block := .row "r" ⟨.twoEqual, columns, RowLayout.initialGap, true, .initial⟩
    let e := (Editor.start [row] .initial).startDrag (.nested "r" "c" "a")
    let op := drop (.column "r" "d" 7)
    (op.movesBlock e = true ∨ op.relayouts = true) ∧
      SameHoldings e.blocks (op.run e ⟨Nat.repr, 0⟩).1.2.blocks ∧
      (∃ m ∈ op.asMove? e, m.Moved e.blocks (op.run e ⟨Nat.repr, 0⟩).1.2.blocks) ∧
      (op.run e ⟨Nat.repr, 0⟩).1.2.blocks.flatMap Block.contents = [other, other, twin] := by
  intro twin other columns row e op
  have hop : op.movesBlock e = true ∨ op.relayouts = true := .inl rfl
  obtain ⟨hholdings, hmoved, -⟩ := relocation_keeps_content hop ⟨Nat.repr, 0⟩
  exact ⟨hop, hholdings, hmoved rfl rfl, rfl⟩

end Operation

end Letterpress
