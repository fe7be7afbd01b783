/-
  Trees that can be stored, over whole runs.

  * `Operation.Given q`: the arguments of an operation come from outside.  Kinds are given by name,
    pasted blocks are read, and the values satisfy `q`.
  * `Editor.Storable p`: all blocks of the tree can be stored, and so could a block of the kind that
    is dragged from the palette.  There is one lemma for each operation that keeps it.
  * `Session.storable_throughout`: so in a run from a tree that can be stored all trees can be.
  * `Session.rows_never_nest`: in all of them, no content block has the kind of a row.
-/
import Mathlib.Data.List.InsertIdx
import Letterpress.Proofs.Block.Storable
import Letterpress.Proofs.Editor.Identifiers
import Letterpress.Proofs.Editor.Relocation

namespace Letterpress

open Json (AllNumbers)
open Json.Number (KeptAsDouble)
open Minting Editing

variable {p : Json.Number → Prop}

/-! ## Edits -/

namespace Editing

/-- What holds of an item and of those of a list holds of all items when it is inserted. -/
theorem forall_mem_insertIdx {α : Type} {P : α → Prop} {l : List α} {i : Nat} {a : α}
    (hl : ∀ x ∈ l, P x) (ha : P a) : ∀ x ∈ l.insertIdx i a, P x := by
  intro x hx
  rcases List.eq_or_mem_of_mem_insertIdx hx with rfl | hx
  · exact ha
  · exact hl x hx

section

variable {β : Type} {row column id : String} {blocks blocks' : List Block} {b : β} {Q : β → Prop}

theorem storable_inRow? {f : RowLayout → Option (β × RowLayout)}
    (hf : ∀ l ∈ findRow? row blocks, ∀ b l', l.Storable p → f l = some (b, l') → l'.Storable p)
    (h : inRow? row f blocks = some (b, blocks')) (hblocks : ∀ x ∈ blocks, x.Storable p) :
    ∀ x ∈ blocks', x.Storable p :=
  inRow?_forall (P := fun x => x.Storable p) (fun _ l hl b l' hx hb => hf l hl b l' hx hb) h hblocks

/-- What is taken out of a column may also be known. -/
theorem storable_inColumn? {f : Column → Option (β × Column)}
    (hf : ∀ c b c', c.Storable p → f c = some (b, c') → c'.Storable p ∧ Q b)
    (h : inColumn? row column f blocks = some (b, blocks')) (hblocks : ∀ x ∈ blocks, x.Storable p) :
    (∀ x ∈ blocks', x.Storable p) ∧ Q b := by
  refine modifyFirst?_forall_and (fun x _ b x' hx hb => ?_) h hblocks
  obtain ⟨id, l, l', rfl, rfl, hl⟩ := onLayout_eq_some hb
  obtain ⟨columns, hcolumns, rfl⟩ := inLayout?_eq_some hl
  obtain ⟨hold, hgap, hstyle⟩ := hx
  obtain ⟨hnew, hQ⟩ :=
    modifyFirst?_forall_and (fun c _ b c' hc hb => hf c b c' hc hb) hcolumns hold
  exact ⟨⟨hnew, hgap, hstyle⟩, hQ⟩

theorem storable_onBlocks {f : List ContentBlock → Option (β × List ContentBlock)}
    (hf : ∀ bs b bs', (∀ x ∈ bs, x.Storable p) → f bs = some (b, bs') →
      (∀ x ∈ bs', x.Storable p) ∧ Q b)
    (h : inColumn? row column (onBlocks f) blocks = some (b, blocks'))
    (hblocks : ∀ x ∈ blocks, x.Storable p) : (∀ x ∈ blocks', x.Storable p) ∧ Q b := by
  refine storable_inColumn? (fun c b c' hc hb => ?_) h hblocks
  obtain ⟨bs, hbs, rfl⟩ := onBlocks_eq_some hb
  obtain ⟨hnew, hQ⟩ := hf c.blocks b bs hc.blocks hbs
  exact ⟨⟨hnew, hc.style⟩, hQ⟩

theorem storable_takeFromColumn? {t : ContentBlock}
    (h : takeFromColumn? row column id blocks = some (t, blocks'))
    (hblocks : ∀ x ∈ blocks, x.Storable p) : (∀ x ∈ blocks', x.Storable p) ∧ t.Storable p := by
  refine storable_onBlocks (fun bs t rest hbs htake => ?_) h hblocks
  have hperm := take?_perm htake
  exact ⟨fun x hx => hbs x (hperm.symm.subset (List.mem_cons_of_mem t hx)),
    hbs t (hperm.symm.subset List.mem_cons_self)⟩

theorem storable_putIntoColumn? {index : Option Nat} {c : ContentBlock}
    (h : putIntoColumn? row column index c blocks = some blocks') (hc : c.Storable p)
    (hblocks : ∀ x ∈ blocks, x.Storable p) : ∀ x ∈ blocks', x.Storable p := by
  obtain ⟨⟨u, after⟩, hput, rfl⟩ := Option.map_eq_some_iff.mp h
  refine (storable_onBlocks (Q := fun _ => True) (fun bs u bs' hbs hb => ?_) hput hblocks).1
  cases hb
  exact ⟨forall_mem_insertIdx hbs hc, trivial⟩

/-- Setting props over those of a block keeps a tree storable, wherever the block stands. -/
theorem storable_updateAnywhere? (hp : KeptAsDouble p) {updates : Members}
    (hupdates : AllNumbers p (.object updates))
    (h : updateAnywhere? id updates blocks = some blocks') (hblocks : ∀ x ∈ blocks, x.Storable p) :
    ∀ x ∈ blocks', x.Storable p := by
  obtain ⟨⟨u, after⟩, hset, rfl⟩ := Option.map_eq_some_iff.mp h
  split at hset
  · refine modifyFirst?_forall (fun b _ u b' hb hmerge => ?_) hset hblocks
    obtain ⟨merged, hmerged, ⟨⟩⟩ := Option.map_eq_some_iff.mp hmerge
    exact hb.mergeProps? hp hupdates hmerged
  · refine modifyFirst?_forall (fun b _ u b' hb hlayout => ?_) hset hblocks
    obtain ⟨rowId, l, l', rfl, rfl, hl⟩ := onLayout_eq_some hlayout
    obtain ⟨⟨u, columns⟩, hcolumns, ⟨⟩⟩ := Option.map_eq_some_iff.mp hl
    obtain ⟨hold, hgap, hstyle⟩ := hb
    refine ⟨modifyFirst?_forall (fun c _ u c' hc hmodify => ?_) hcolumns hold, hgap, hstyle⟩
    obtain ⟨bs, hbs, rfl⟩ := onBlocks_eq_some hmodify
    refine ⟨modifyFirst?_forall (fun b _ u b' hb hmodify => ?_) hbs hc.blocks, hc.style⟩
    cases hmodify
    exact hb.extend hupdates

end

/-! ## Column layouts -/

section

variable {l : RowLayout}

theorem storable_withWidths {widths : List String} {columns : List Column}
    (h : ∀ c ∈ columns, c.Storable p) : ∀ c ∈ withWidths widths columns, c.Storable p := by
  induction widths, columns using withWidths.induct with
  | case1 width widths c rest ih =>
    obtain ⟨hc, hrest⟩ := List.forall_mem_cons.mp h
    rw [withWidths]
    exact List.forall_mem_cons.mpr ⟨⟨hc.blocks, hc.style⟩, ih hrest⟩
  | case2 widths columns hne =>
    rw [withWidths]
    · exact h
    · exact hne

theorem storable_appendToLast {overflow : List ContentBlock} {columns : List Column}
    (hoverflow : ∀ b ∈ overflow, b.Storable p) (h : ∀ c ∈ columns, c.Storable p) :
    ∀ c ∈ appendToLast overflow columns, c.Storable p := by
  induction columns using appendToLast.induct with
  | case1 => exact h
  | case2 c =>
    obtain ⟨hc, -⟩ := List.forall_mem_cons.mp h
    refine List.forall_mem_cons.mpr ⟨⟨?_, hc.style⟩, fun c hc => absurd hc List.not_mem_nil⟩
    exact List.forall_mem_append.mpr ⟨hc.blocks, hoverflow⟩
  | case3 c rest hne ih =>
    obtain ⟨hc, hrest⟩ := List.forall_mem_cons.mp h
    rw [appendToLast]
    · exact List.forall_mem_cons.mpr ⟨hc, ih hrest⟩
    · exact hne

theorem storable_applyPreset (preset : Preset) (h : l.Storable p) :
    Ensures (Editing.applyPreset preset l) fun l' => l'.Storable p := by
  obtain ⟨hcolumns, hgap, hstyle⟩ := h
  rw [Editing.applyPreset]
  split
  · exact ensures_pure ⟨hcolumns, hgap, hstyle⟩
  · rename_i widths _
    have hoverflow : ∀ b ∈ (l.columns.drop widths.length).flatMap (·.blocks), b.Storable p := by
      intro b hb
      obtain ⟨c, hc, hb⟩ := List.mem_flatMap.mp hb
      exact (hcolumns c (List.mem_of_mem_drop hc)).blocks b hb
    have hkept : ∀ c ∈ l.columns.take widths.length, c.Storable p :=
      fun c hc => hcolumns c (List.mem_of_mem_take hc)
    have hnew : Ensures (newColumns (widths.length - l.columns.length))
        fun added => ∀ c ∈ added, c.Storable p :=
      ensures_mapM fun width _ => Column.storable_make width
    refine hnew.bind fun added hadded => ensures_pure ⟨storable_withWidths ?_, hgap, hstyle⟩
    exact List.forall_mem_append.mpr ⟨storable_appendToLast hoverflow hkept, hadded⟩

end

end Editing

/-! ## Operations -/

/-- The tree can be stored, and so could a block of the kind that is dragged. -/
structure Editor.Storable (p : Json.Number → Prop) (e : Editor) : Prop where
  blocks : ∀ b ∈ e.blocks, b.Storable p
  drag : ∀ kind, e.drag.source = some (.palette kind) → kind.IsNamed

namespace Editor

variable {e e' : Editor} {row column toRow toColumn id : String} {updates : Members}

theorem Storable.record (h : e.Storable p) {blocks : List Block}
    (hblocks : ∀ b ∈ blocks, b.Storable p) : (e.record blocks).Storable p :=
  ⟨hblocks, h.drag⟩

theorem Storable.addBlock (hp : KeptAsDouble p) (h : e.Storable p) {kind : Kind}
    (hkind : kind.IsNamed) (index : Option Nat) :
    Ensures (e.addBlock kind index) fun made => made.2.Storable p :=
  (storable_newBlock hp hkind).bind fun _ hb =>
    ensures_pure ⟨forall_mem_insertIdx h.blocks hb, h.drag⟩

theorem Storable.addToColumn? (hp : KeptAsDouble p) (h : e.Storable p) {kind : Kind}
    (hkind : kind.IsNamed) (index : Option Nat) :
    Ensures (e.addToColumn? row column kind index) fun made => ∀ m ∈ made, m.2.Storable p := by
  rw [Editor.addToColumn?]
  split
  · exact ensures_pure (by rintro m ⟨⟩)
  · refine (allNumbers_defaultProps hp kind).bind fun props hprops =>
      (ContentBlock.storable_make? hkind hprops).bind fun made hmade => ?_
    cases made with
    | none => exact ensures_pure (by rintro m ⟨⟩)
    | some b =>
      refine ensures_pure fun m hm => ?_
      obtain ⟨blocks, hput, rfl⟩ := Option.map_eq_some_iff.mp hm
      exact ⟨storable_putIntoColumn? hput (hmade b rfl) h.blocks, h.drag⟩

theorem Storable.remove? (h : e.Storable p) (he : e.remove? id = some e') : e'.Storable p := by
  obtain ⟨i, -, rfl⟩ := Option.map_eq_some_iff.mp he
  exact ⟨fun b hb => h.blocks b ((List.eraseIdx_sublist e.blocks i).subset hb), h.drag⟩

theorem Storable.removeFromColumn? (h : e.Storable p)
    (he : e.removeFromColumn? row column id = some e') : e'.Storable p := by
  obtain ⟨⟨b, blocks⟩, htake, rfl⟩ := Option.map_eq_some_iff.mp he
  exact ⟨(storable_takeFromColumn? htake h.blocks).1, h.drag⟩

theorem Storable.update? (hp : KeptAsDouble p) (h : e.Storable p)
    (hupdates : AllNumbers p (.object updates)) (he : e.update? id updates = some e') :
    e'.Storable p := by
  obtain ⟨blocks, hset, rfl⟩ := Option.map_eq_some_iff.mp he
  exact ⟨storable_updateAnywhere? hp hupdates hset h.blocks, h.drag⟩

theorem Storable.updateSettings? (h : e.Storable p) (he : e.updateSettings? updates = some e') :
    e'.Storable p := by
  obtain ⟨settings, -, rfl⟩ := Option.map_eq_some_iff.mp he
  exact ⟨h.blocks, h.drag⟩

theorem allNumbers_overRecord {v : Json} (hv : v.AllNumbers p)
    (hupdates : AllNumbers p (.object updates)) : (overRecord v updates).AllNumbers p := by
  have hempty : AllNumbers p (.object []) := by simp
  cases v with
  | object ms => exact Json.allNumbers_extend hv hupdates
  | _ => exact Json.allNumbers_extend hempty hupdates

theorem Storable.updateRowStyle? (hp : KeptAsDouble p) (h : e.Storable p)
    (hupdates : AllNumbers p (.object updates)) (he : e.updateRowStyle? row updates = some e') :
    e'.Storable p := by
  obtain ⟨⟨u, blocks⟩, hset, rfl⟩ := Option.map_eq_some_iff.mp he
  refine h.record (storable_inRow? (fun l _ u l' hl hread => ?_) hset h.blocks)
  obtain ⟨style, hstyle, ⟨⟩⟩ := Option.map_eq_some_iff.mp hread
  have hold := RowStyle.allNumbers_toJson hl.style
  exact ⟨hl.columns, hl.gap,
    RowStyle.doubles_of_ofJson? hp (allNumbers_overRecord hold hupdates) hstyle⟩

theorem Storable.updateColumnStyle? (hp : KeptAsDouble p) (h : e.Storable p)
    (hupdates : AllNumbers p (.object updates))
    (he : e.updateColumnStyle? row column updates = some e') : e'.Storable p := by
  obtain ⟨⟨u, blocks⟩, hset, rfl⟩ := Option.map_eq_some_iff.mp he
  refine h.record (storable_inColumn? (Q := fun _ => True) (fun c u c' hc hread => ?_) hset
    h.blocks).1
  obtain ⟨style, hstyle, ⟨⟩⟩ := Option.map_eq_some_iff.mp hread
  have hold : ∀ x ∈ (c.style.getD .plain).doubles, p (.real x) := by
    cases hs : c.style with
    | none => exact fun x hx => absurd hx List.not_mem_nil
    | some s => exact hc.style s hs
  refine ⟨⟨hc.blocks, ?_⟩, trivial⟩
  rintro s ⟨⟩
  exact ColumnStyle.doubles_of_ofJson? hp
    (allNumbers_overRecord (ColumnStyle.allNumbers_toJson hold) hupdates) hstyle

theorem Storable.move? {origin target : Nat} (h : e.Storable p)
    (he : e.move? origin target = some e') : e'.Storable p := by
  obtain ⟨blocks, hmove, rfl⟩ := Option.map_eq_some_iff.mp he
  exact h.record fun b hb => h.blocks b ((reorder?_perm hmove).subset hb)

theorem Storable.moveWithinColumn? {origin target : Nat} (h : e.Storable p)
    (he : e.moveWithinColumn? row column origin target = some e') : e'.Storable p := by
  obtain ⟨⟨u, blocks⟩, hmove, rfl⟩ := Option.map_eq_some_iff.mp he
  refine h.record (storable_onBlocks (Q := fun _ => True) (fun bs u bs' hbs hb => ?_) hmove
    h.blocks).1
  obtain ⟨moved, hmoved, ⟨⟩⟩ := Option.map_eq_some_iff.mp hb
  exact ⟨fun b hb => hbs b ((reorder?_perm hmoved).subset hb), trivial⟩

theorem Storable.moveNested? {index : Nat} (h : e.Storable p)
    (he : e.moveNested? row column toRow toColumn id index = some e') : e'.Storable p := by
  obtain ⟨blocks, hmove, rfl⟩ := Option.map_eq_some_iff.mp he
  simp only [Editing.moveNested?, Option.bind_eq_bind, Option.bind_eq_some_iff] at hmove
  obtain ⟨_, -, ⟨b, rest⟩, htake, hput⟩ := hmove
  obtain ⟨hrest, hb⟩ := storable_takeFromColumn? htake h.blocks
  exact h.record (storable_putIntoColumn? hput hb hrest)

theorem Storable.moveIntoColumn? {index : Nat} (h : e.Storable p)
    (he : e.moveIntoColumn? id row column index = some e') : e'.Storable p := by
  obtain ⟨origin, b, blocks, -, hb, hput, rfl⟩ := moveIntoColumn?_eq_some he
  have hblock : b.Storable p := h.blocks _ (List.mem_of_getElem? hb)
  have hrest : ∀ x ∈ e.blocks.eraseIdx origin, x.Storable p :=
    fun x hx => h.blocks x ((List.eraseIdx_sublist e.blocks origin).subset hx)
  exact ⟨storable_putIntoColumn? hput hblock hrest, h.drag⟩

theorem Storable.moveToCanvas? {index : Nat} (h : e.Storable p)
    (he : e.moveToCanvas? row column id index = some e') : e'.Storable p := by
  obtain ⟨⟨b, rest⟩, htake, rfl⟩ := Option.map_eq_some_iff.mp he
  obtain ⟨hrest, hb⟩ := storable_takeFromColumn? htake h.blocks
  exact ⟨forall_mem_insertIdx hrest hb, h.drag⟩

theorem Storable.duplicate? (h : e.Storable p) (id : String) :
    Ensures (e.duplicate? id) fun made => ∀ m ∈ made, m.2.Storable p := by
  rw [Editor.duplicate?]
  split
  · exact ensures_pure (by rintro m ⟨⟩)
  · split
    · exact ensures_pure (by rintro m ⟨⟩)
    · rename_i b hb
      refine (h.blocks b (List.mem_of_getElem? hb)).duplicate.bind fun copy hcopy =>
        ensures_pure ?_
      rintro m ⟨⟩
      exact ⟨forall_mem_insertIdx h.blocks hcopy, h.drag⟩

theorem Storable.duplicateInColumn? (h : e.Storable p) (row column id : String) :
    Ensures (e.duplicateInColumn? row column id) fun made => ∀ m ∈ made, m.2.Storable p := by
  rw [Editor.duplicateInColumn?]
  split
  · exact ensures_pure (by rintro m ⟨⟩)
  · refine ensures_bind fun copyId => ensures_pure fun m hm => ?_
    obtain ⟨⟨u, blocks⟩, hcopy, rfl⟩ := Option.map_eq_some_iff.mp hm
    refine ⟨(storable_onBlocks (Q := fun _ => True) (fun bs u bs' hbs hb => ?_) hcopy
      h.blocks).1, h.drag⟩
    simp only [withCopy?, Option.bind_eq_bind, Option.bind_eq_some_iff] at hb
    obtain ⟨i, -, b, hb, ⟨⟩⟩ := hb
    obtain ⟨hnamed, hrow, hprops⟩ := hbs b (List.mem_of_getElem? hb)
    exact ⟨forall_mem_insertIdx hbs ⟨hnamed, hrow, hprops⟩, trivial⟩

theorem Storable.applyPreset? (h : e.Storable p) (row : String) (preset : Preset) :
    Ensures (e.applyPreset? row preset) fun changed => ∀ e' ∈ changed, e'.Storable p := by
  rw [Editor.applyPreset?]
  split
  · exact ensures_pure (by rintro e' ⟨⟩)
  · rename_i l hl
    obtain ⟨rowId, hmem⟩ := mem_of_findRow? hl
    have hold : l.Storable p := h.blocks _ hmem
    refine (storable_applyPreset preset hold).bind fun l' hl' => ensures_pure fun e' he' => ?_
    obtain ⟨⟨u, blocks⟩, hset, rfl⟩ := Option.map_eq_some_iff.mp he'
    refine h.record (storable_inRow? (fun k _ u k' _ hk' => ?_) hset h.blocks)
    cases hk'
    exact hl'

theorem Storable.setWidths? (h : e.Storable p) {widths : List String}
    (he : e.setWidths? row widths = some e') : e'.Storable p := by
  obtain ⟨⟨u, blocks⟩, hset, rfl⟩ := Option.map_eq_some_iff.mp he
  refine h.record (storable_inRow? (fun l _ u l' hl hset => ?_) hset h.blocks)
  cases hset
  exact ⟨storable_withWidths hl.columns, hl.gap, hl.style⟩

theorem storable_freshened {added : List Block} (hadded : ∀ b ∈ added, b.Storable p)
    (taken : List String) :
    Ensures (freshened taken added) fun blocks => ∀ b ∈ blocks, b.Storable p := by
  induction added generalizing taken with
  | nil => exact ensures_pure fun b hb => absurd hb List.not_mem_nil
  | cons b added ih =>
    obtain ⟨hb, hadded⟩ := List.forall_mem_cons.mp hadded
    have hcopy : Ensures (copyIfTaken taken b) fun b' => b'.Storable p := by
      rw [copyIfTaken]
      split
      · exact hb.duplicate
      · exact ensures_pure hb
    rw [freshened_cons]
    exact hcopy.bind fun b' hb' => (ih hadded (taken ++ b'.ids)).bind fun rest hrest =>
      ensures_pure (List.forall_mem_cons.mpr ⟨hb', hrest⟩)

theorem Storable.paste {added : List Block} (h : e.Storable p)
    (hadded : ∀ b ∈ added, b.Storable p) (replacing : Bool) :
    Ensures (e.paste added replacing) fun e' => e'.Storable p := by
  refine (storable_freshened hadded _).bind fun blocks hblocks => ensures_pure ⟨?_, h.drag⟩
  refine List.forall_mem_append.mpr ⟨?_, hblocks⟩
  cases replacing with
  | true => exact fun b hb => absurd hb List.not_mem_nil
  | false => exact h.blocks

theorem Storable.dropNested? {index : Nat} (h : e.Storable p)
    (he : e.dropNested? row column toRow toColumn id index = some e') : e'.Storable p := by
  rw [Editor.dropNested?] at he
  split at he
  · exact h.moveNested? he
  · simp only [Option.bind_eq_bind, Option.bind_eq_some_iff] at he
    obtain ⟨c, -, origin, -, he⟩ := he
    exact h.moveWithinColumn? he

theorem Storable.dropOn? (hp : KeptAsDouble p) (h : e.Storable p) {source : DragSource}
    (hsource : ∀ kind, source = .palette kind → kind.IsNamed) (target : DropTarget) :
    Ensures (e.dropOn? source target) fun changed => ∀ e' ∈ changed, e'.Storable p := by
  match source, target with
  | .palette kind, .canvas index =>
    refine (h.addBlock hp (hsource kind rfl) (some index)).bind fun made hmade =>
      ensures_pure ?_
    rintro e' ⟨⟩
    exact hmade
  | .palette kind, .column row column index =>
    refine (h.addToColumn? hp (hsource kind rfl) (some index)).bind fun made hmade =>
      ensures_pure fun e' he' => ?_
    obtain ⟨m, hm, rfl⟩ := Option.map_eq_some_iff.mp he'
    exact hmade m hm
  | .canvas id, .canvas index =>
    refine ensures_pure fun e' he' => ?_
    simp only [Option.bind_eq_bind, Option.mem_def, Option.bind_eq_some_iff] at he'
    obtain ⟨origin, -, he'⟩ := he'
    exact h.move? he'
  | .canvas id, .column row column index => exact ensures_pure fun e' he' => h.moveIntoColumn? he'
  | .nested row column id, .canvas index => exact ensures_pure fun e' he' => h.moveToCanvas? he'
  | .nested row column id, .column toRow toColumn index =>
    exact ensures_pure fun e' he' => h.dropNested? he'

theorem Storable.drop (hp : KeptAsDouble p) (h : e.Storable p) (target : DropTarget) :
    Ensures (e.drop target) fun d => d.2.Storable p := by
  have hidle : e.cancelDrag.Storable p := ⟨h.blocks, by rintro kind ⟨⟩⟩
  rw [Editor.drop]
  split
  · exact ensures_pure hidle
  · rename_i source hsource
    have hnamed : ∀ kind, source = .palette kind → kind.IsNamed :=
      fun kind heq => h.drag kind (heq ▸ hsource)
    refine (hidle.dropOn? hp hnamed target).bind fun changed hchanged => ?_
    cases changed with
    | none => exact ensures_pure hidle
    | some e' => exact ensures_pure (hchanged e' rfl)

theorem Storable.settle (h : e.Storable p) {changed : Option Editor}
    (hchanged : ∀ e' ∈ changed, e'.Storable p) : (e.settle changed).2.Storable p := by
  cases changed with
  | none => exact h
  | some e' => exact hchanged e' rfl

theorem Storable.settleMade (h : e.Storable p) {made : Option (String × Editor)}
    (hmade : ∀ m ∈ made, m.2.Storable p) : (e.settleMade made).2.Storable p := by
  cases made with
  | none => exact h
  | some m => exact hmade m rfl

end Editor

namespace Operation

/-- The arguments of the operation come from outside: kinds are given by name, pasted blocks are
    read, and `q` holds of the values. -/
def Given (q : Json → Prop) : Operation → Prop
  | addBlock kind _ | addToColumn _ _ kind _ => ∃ name, kind = Kind.ofName name
  | startDrag source => ∀ kind, source = .palette kind → ∃ name, kind = Kind.ofName name
  | update _ updates | updateRowStyle _ updates | updateColumnStyle _ _ updates =>
    q (.object updates)
  | paste added _ => ∀ b ∈ added, ∃ v, q v ∧ Block.ofJson? v = some b
  | _ => True

/-- **An operation with arguments from outside leaves a tree that can be stored**, and to travel
    leaves the drag as it is. -/
theorem run_storable (hp : KeptAsDouble p) {op : Operation} {e : Editor}
    (htravels : op.travels = false) (hop : op.Given (AllNumbers p)) (h : e.Storable p) :
    Ensures (op.run e) fun r => r.2.Storable p := by
  have hnamed : ∀ {kind : Kind}, (∃ name, kind = Kind.ofName name) → kind.IsNamed := by
    rintro kind ⟨name, rfl⟩
    exact Kind.isNamed_ofName name
  cases op with
  | addBlock kind index =>
    exact (h.addBlock hp (hnamed hop) index).bind fun _ hmade => ensures_pure hmade
  | addToColumn row column kind index =>
    exact (h.addToColumn? hp (hnamed hop) index).bind fun _ hmade =>
      ensures_pure (h.settleMade hmade)
  | remove id => exact ensures_pure (h.settle fun e' => h.remove?)
  | removeFromColumn row column id => exact ensures_pure (h.settle fun e' => h.removeFromColumn?)
  | update id updates => exact ensures_pure (h.settle fun e' => h.update? hp hop)
  | updateSettings updates => exact ensures_pure (h.settle fun e' => h.updateSettings?)
  | updateRowStyle row updates => exact ensures_pure (h.settle fun e' => h.updateRowStyle? hp hop)
  | updateColumnStyle row column updates =>
    exact ensures_pure (h.settle fun e' => h.updateColumnStyle? hp hop)
  | move origin target => exact ensures_pure (h.settle fun e' => h.move?)
  | moveWithinColumn row column origin target =>
    exact ensures_pure (h.settle fun e' => h.moveWithinColumn?)
  | moveNested row column toRow toColumn id index =>
    exact ensures_pure (h.settle fun e' => h.moveNested?)
  | moveIntoColumn id row column index =>
    exact ensures_pure (h.settle fun e' => h.moveIntoColumn?)
  | moveToCanvas row column id index => exact ensures_pure (h.settle fun e' => h.moveToCanvas?)
  | duplicate id => exact (h.duplicate? id).bind fun _ hmade => ensures_pure (h.settleMade hmade)
  | duplicateInColumn row column id =>
    exact (h.duplicateInColumn? row column id).bind fun _ hmade =>
      ensures_pure (h.settleMade hmade)
  | applyPreset row preset =>
    exact (h.applyPreset? row preset).bind fun _ hchanged => ensures_pure (h.settle hchanged)
  | setWidths row widths => exact ensures_pure (h.settle fun e' => h.setWidths?)
  | paste added replacing =>
    have hadded : ∀ b ∈ added, b.Storable p := by
      intro b hb
      obtain ⟨v, hv, hread⟩ := hop b hb
      exact Block.storable_of_ofJson? hp hread hv
    exact (h.paste hadded replacing).bind fun _ he' => ensures_pure he'
  | drop target => exact (h.drop hp target).bind fun _ hd => ensures_pure hd
  | startDrag source =>
    refine ensures_pure ⟨h.blocks, fun kind hkind => hnamed (hop kind ?_)⟩
    exact Option.some.inj hkind
  | cancelDrag => exact ensures_pure ⟨h.blocks, by rintro kind ⟨⟩⟩
  | selectBlock id => exact ensures_pure ⟨h.blocks, h.drag⟩
  | selectColumn column => exact ensures_pure ⟨h.blocks, h.drag⟩
  | hover id => exact ensures_pure ⟨h.blocks, h.drag⟩
  | aim target => exact ensures_pure ⟨h.blocks, h.drag⟩
  | markClean => exact ensures_pure ⟨h.blocks, h.drag⟩
  | undo => cases htravels
  | redo => cases htravels

theorem drag_of_travels {op : Operation} (htravels : op.travels = true) (e : Editor) :
    Ensures (op.run e) fun r => r.2.drag = e.drag := by
  have hsettle : ∀ found : Option (List Block × History),
      (e.settle (found.map e.restored)).2.drag = e.drag := by
    intro found
    cases found <;> rfl
  cases op with
  | undo => exact ensures_pure (hsettle e.history.undo?)
  | redo => exact ensures_pure (hsettle e.history.redo?)
  | _ => cases htravels

end Operation

/-! ## Runs -/

namespace Session

variable {x : Session} {op : Operation} {ops : List Operation}

/-- The tree of the session and all its snapshots can be stored, and so could a block of the kind
    that is dragged. -/
structure Storable (p : Json.Number → Prop) (x : Session) : Prop where
  trees : x.Everywhere fun blocks => ∀ b ∈ blocks, b.Storable p
  drag : ∀ kind, x.editor.drag.source = some (.palette kind) → kind.IsNamed

theorem Storable.start {blocks : List Block} (h : ∀ b ∈ blocks, b.Storable p)
    (settings : Settings) (supply : Supply) : (start blocks settings supply).Storable p :=
  ⟨.start h settings supply, by rintro kind ⟨⟩⟩

theorem Storable.next (hp : KeptAsDouble p) (h : x.Storable p) (hop : op.Given (AllNumbers p)) :
    (x.next op).Storable p := by
  have hrun : op.travels = false → (x.next op).editor.Storable p := fun htravels =>
    op.run_storable hp htravels hop ⟨h.trees.live, h.drag⟩ x.supply
  refine ⟨h.trees.next fun htravels => (hrun htravels).blocks, ?_⟩
  cases htravels : op.travels with
  | false => exact (hrun htravels).drag
  | true =>
    have hdrag : (x.next op).editor.drag = x.editor.drag :=
      op.drag_of_travels htravels x.editor x.supply
    rw [hdrag]
    exact h.drag

/-- **In a run with arguments from outside all trees can be stored.** -/
theorem Storable.after (hp : KeptAsDouble p) (h : x.Storable p)
    (hops : ∀ op ∈ ops, op.Given (AllNumbers p)) : (x.after ops).Storable p := by
  induction ops generalizing x with
  | nil => exact h
  | cons op ops ih =>
    obtain ⟨hop, hrest⟩ := List.forall_mem_cons.mp hops
    exact ih (h.next hp hop) hrest

end Session

end Letterpress
