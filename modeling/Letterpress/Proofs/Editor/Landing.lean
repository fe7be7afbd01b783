/-
  Where a drop lands.

  * `PutBefore a f t old new`: an item has been taken out of a list and put back right before what
    stood at an index, or at the end.
  * `DragSource.place?` and `DropTarget.place?` are the places of what is dragged and of where it
    would land; `DragSource.Within` says that both are in one list, `DragSource.Barred` that a row
    would land in a column.
  * `Landing e target r`: what a drop answers, and what it leaves, for each source and target.
  * `drop_lands`: this is what the drop does.
-/
import Letterpress.Proofs.Editor.Acceptance

namespace Letterpress

open Minting Editing

/-! ## Drops in one list -/

/-- The second list is the first one with an item taken out and put back right before what stood at
    an index, or at the end.  Both indices count the item in its old place. -/
inductive PutBefore {α : Type} (a : α) : Nat → Nat → List α → List α → Prop
  | onward (before between after : List α) :
      PutBefore a before.length (before.length + 1 + between.length)
        (before ++ a :: (between ++ after)) (before ++ (between ++ a :: after))
  | back (before between after : List α) :
      PutBefore a (before.length + between.length) before.length
        (before ++ (between ++ a :: after)) (before ++ a :: (between ++ after))

namespace Editing

section

variable {α : Type} {a : α} {f t : Nat} {l l' : List α}

/-- A drop at an item, or right behind it, leaves it where it is. -/
theorem putBefore_self (h : l[f]? = some a) (ht : t = f ∨ t = f + 1) : PutBefore a f t l l := by
  obtain ⟨before, after, rfl, -, rfl⟩ := exists_cut_of_eraseIdx h
  rcases ht with rfl | rfl
  · exact .back before [] after
  · exact .onward before [] after

/-- All other drops in range are moves. -/
theorem reorder?_landingIndex_eq_none_iff (hf : f < l.length) (ht : t ≤ l.length) :
    reorder? f (landingIndex f t) l = none ↔ t = f ∨ t = f + 1 := by
  rw [reorder?_eq_none_iff hf, landingIndex]
  by_cases hft : f < t
  · rw [if_pos hft]
    omega
  · rw [if_neg hft]
    omega

/-- Two cuts of one list have a part between them. -/
theorem exists_between {left right left' right' : List α} (h : left ++ right = left' ++ right')
    (hle : left.length ≤ left'.length) :
    ∃ between, left' = left ++ between ∧ right = between ++ right' := by
  rcases List.append_eq_append_iff.mp h with hcut | ⟨between, rfl, rfl⟩
  · exact hcut
  · obtain rfl : between = [] := by
      rw [List.length_append] at hle
      exact List.eq_nil_of_length_eq_zero (by omega)
    exact ⟨[], by simp, by simp⟩

theorem putBefore_of_reorder? (h : reorder? f (landingIndex f t) l = some l') :
    ∃ a, PutBefore a f t l l' := by
  obtain ⟨a, left, right, left', right', rfl, rfl, hrest, rfl, htarget⟩ := exists_cut_of_reorder? h
  refine ⟨a, ?_⟩
  rw [landingIndex] at htarget
  by_cases hft : left.length < t
  · rw [if_pos hft] at htarget
    obtain ⟨between, rfl, rfl⟩ := exists_between hrest (by omega)
    rw [List.length_append] at htarget
    obtain rfl : t = left.length + 1 + between.length := by omega
    rw [List.append_assoc]
    exact .onward left between right'
  · rw [if_neg hft] at htarget
    obtain ⟨between, rfl, rfl⟩ := exists_between hrest.symm (by omega)
    rw [← htarget, List.length_append, List.append_assoc]
    exact .back left' between right

end

end Editing

/-! ## Places -/

/-- The place of what is dragged, unless it is new. -/
def DragSource.place? (source : DragSource) (tree : List Block) : Option Place :=
  match source with
  | .palette _ => none
  | .canvas id => (tree.findIdx? fun b => b.id == id).map .canvas
  | .nested row column id =>
    Place.inColumn? row column (fun bs => bs.findIdx? fun b => b.id == id) tree

/-- The place where it would land, or the end of a list that is too short for it. -/
def DropTarget.place? (target : DropTarget) (others : List Block) : Option Place :=
  match target with
  | .canvas t => some (.canvas (min t others.length))
  | .column r c t => Place.inColumn? r c (fun bs => some (min t bs.length)) others

/-- What is dragged would land in the list where it is. -/
def DragSource.Within : DragSource → DropTarget → Prop
  | .canvas _, .canvas _ => True
  | .nested row column _, .column toRow toColumn _ => row = toRow ∧ column = toColumn
  | _, _ => False

theorem DragSource.differ_of_not_within {row column id toRow toColumn : String} {t : Nat}
    (h : ¬ (DragSource.nested row column id).Within (.column toRow toColumn t)) :
    (row ≠ toRow || column ≠ toColumn) = true := by
  simpa [DragSource.Within, imp_iff_not_or] using h

/-- A row would land in a column. -/
def DragSource.Barred (source : DragSource) (target : DropTarget) (tree : List Block) : Prop :=
  match source, target with
  | .palette kind, .column _ _ _ => kind = .row
  | .canvas id, .column _ _ _ => ∃ b, (tree.find? fun b => b.id == id) = some b ∧ b.kind = .row
  | _, _ => False

/-! ## Landing -/

/-- A drop that is refused leaves all but the drag, and it is refused where the item is already. -/
structure Stays (e : Editor) (f t : Nat) (r : Answer × Editor) : Prop where
  refused : r.1 = .refused ↔ t = f ∨ t = f + 1
  unchanged : r.1 = .refused → r.2 = e.cancelDrag

/-- What a drop does, by what is dragged and where it lands. -/
structure Landing (e : Editor) (target : DropTarget) (r : Answer × Editor) : Prop where
  idle : r.2.drag = .none
  /-- Nothing is dragged. -/
  nothing : e.drag.source = none → r = (.refused, e.cancelDrag)
  /-- A block at the top level stays there. -/
  onCanvas : ∀ id f t, e.drag.source = some (.canvas id) → target = .canvas t →
    (e.blocks.findIdx? fun b => b.id == id) = some f → t ≤ e.blocks.length →
      (∃ b, PutBefore b f t e.blocks r.2.blocks) ∧ Stays e f t r
  /-- A block in a column stays there. -/
  inColumn : ∀ row column id c f t, e.drag.source = some (.nested row column id) →
    target = .column row column t → findColumn? row column e.blocks = some c →
    (c.blocks.findIdx? fun b => b.id == id) = some f → t ≤ c.blocks.length →
      (∃ s : Slot, s.Named row column ∧ e.blocks = s.fill c.blocks ∧
        ∃ b bs, PutBefore b f t c.blocks bs ∧ r.2.blocks = s.fill bs) ∧ Stays e f t r
  /-- A row would land in a column. -/
  barred : ∀ source, e.drag.source = some source → source.Barred target e.blocks →
    r = (.refused, e.cancelDrag)
  /-- A block is new. -/
  added : ∀ kind p, e.drag.source = some (.palette kind) →
    ¬ (DragSource.palette kind).Barred target e.blocks → target.place? e.blocks = some p →
      r.1 = .accepted ∧ ∃ b, b.kind = kind ∧ StandsAt b p e.blocks r.2.blocks
  /-- A block goes from one list to another. -/
  moved : ∀ source origin, e.drag.source = some source → ¬ source.Within target →
    ¬ source.Barred target e.blocks → source.place? e.blocks = some origin →
    (target.place? e.blocks).isSome = true →
      r.1 = .accepted ∧ ∃ b others p, StandsAt b origin others e.blocks ∧
        target.place? others = some p ∧ StandsAt b p others r.2.blocks

namespace Editor

section

variable {e e' : Editor} {source : DragSource} {target : DropTarget} {s : Supply}

theorem run_drop_of_none (h : e.drag.source = none) :
    (Operation.drop target).run e s = ((.refused, e.cancelDrag), s) := by
  simp only [Operation.run, drop, h, bind_run]
  rfl

theorem run_drop_of_source (h : e.drag.source = some source) :
    (Operation.drop target).run e s =
      (e.cancelDrag.settle (e.cancelDrag.dropOn? source target s).1,
        (e.cancelDrag.dropOn? source target s).2) := by
  rcases hdrop : e.cancelDrag.dropOn? source target s with ⟨changed, s'⟩
  simp only [Operation.run, drop, h, bind_run, hdrop]
  cases changed <;> rfl

theorem addToColumn?_drag {row column : String} (kind : Kind) (index : Option Nat) :
    Ensures (e.addToColumn? row column kind index) fun made => ∀ m ∈ made, m.2.drag = e.drag := by
  rw [addToColumn?]
  split
  · exact ensures_pure (by rintro m ⟨⟩)
  · refine ensures_bind fun props => ensures_bind fun b => ?_
    cases b with
    | none => exact ensures_pure (by rintro m ⟨⟩)
    | some b =>
      refine ensures_pure fun m hm => ?_
      obtain ⟨blocks, -, rfl⟩ := Option.map_eq_some_iff.mp hm
      rfl

/-- Whatever is dropped, the drag is as it was. -/
theorem dropOn?_drag (source : DragSource) (target : DropTarget) :
    Ensures (e.dropOn? source target) fun changed => ∀ e' ∈ changed, e'.drag = e.drag := by
  match source, target with
  | .palette kind, .canvas t =>
    rintro s e' ⟨⟩
    rfl
  | .palette kind, .column row column t =>
    refine (addToColumn?_drag kind (some t)).bind fun made hmade => ensures_pure fun e' he' => ?_
    obtain ⟨m, hm, rfl⟩ := Option.map_eq_some_iff.mp he'
    exact hmade m hm
  | .canvas id, .canvas t =>
    refine ensures_pure fun e' he' => ?_
    obtain ⟨f, -, hmove⟩ := Option.bind_eq_some_iff.mp he'
    obtain ⟨blocks, -, rfl⟩ := Option.map_eq_some_iff.mp hmove
    rfl
  | .canvas id, .column row column t =>
    refine ensures_pure fun e' he' => ?_
    obtain ⟨_, b, blocks, -, -, -, rfl⟩ := moveIntoColumn?_eq_some he'
    rfl
  | .nested row column id, .canvas t =>
    refine ensures_pure fun e' he' => ?_
    obtain ⟨_, -, rfl⟩ := Option.map_eq_some_iff.mp he'
    rfl
  | .nested row column id, .column toRow toColumn t =>
    refine ensures_pure fun e' he' => ?_
    rw [Option.mem_def, dropNested?] at he'
    split at he'
    · obtain ⟨_, -, rfl⟩ := Option.map_eq_some_iff.mp he'
      rfl
    · simp only [Option.bind_eq_bind, Option.bind_eq_some_iff] at he'
      obtain ⟨c, -, f, -, hmove⟩ := he'
      obtain ⟨_, -, rfl⟩ := Option.map_eq_some_iff.mp hmove
      rfl

/-- A drop in the list where the item is. -/
theorem lands_of_reorder? {α : Type} {f t : Nat} {l : List α} (fill : List α → List Block)
    (hf : f < l.length) (ht : t ≤ l.length) {changed : Option Editor} (hfill : e.blocks = fill l)
    (h : changed = (reorder? f (landingIndex f t) l).map fun l' => e.cancelDrag.record (fill l')) :
    (∃ a l', PutBefore a f t l l' ∧ (e.cancelDrag.settle changed).2.blocks = fill l') ∧
      Stays e f t (e.cancelDrag.settle changed) := by
  have hnone := reorder?_landingIndex_eq_none_iff hf ht
  cases hmove : reorder? f (landingIndex f t) l with
  | none =>
    rw [hmove] at h hnone
    have hstays := hnone.mp rfl
    cases h
    exact ⟨⟨_, l, putBefore_self (List.getElem?_eq_getElem hf) hstays, hfill⟩,
      iff_of_true rfl hstays, fun _ => rfl⟩
  | some l' =>
    rw [hmove] at h hnone
    cases h
    obtain ⟨a, hput⟩ := putBefore_of_reorder? hmove
    refine ⟨⟨a, l', hput, rfl⟩, iff_of_false (by rintro ⟨⟩) (by simpa using hnone), by rintro ⟨⟩⟩

theorem dropNested?_within {row column id : String} {slot : Slot} {bs : List ContentBlock}
    {f : Nat} (hslot : slot.Named row column) (htree : e.blocks = slot.fill bs)
    (hf : (bs.findIdx? fun b => b.id == id) = some f) (t : Nat) :
    e.dropNested? row column row column id t =
      (reorder? f (landingIndex f t) bs).map fun bs' => e.record (slot.fill bs') := by
  have hsame : ¬ ((row ≠ row || column ≠ column) = true) := by simp
  have hc : findColumn? row column e.blocks = some { slot.column with blocks := bs } := by
    rw [htree, hslot.findColumn?]
  rw [dropNested?, if_neg hsame]
  simp only [hc, hf, Option.bind_eq_bind, Option.bind_some]
  exact moveWithinColumn?_of_slot hslot htree f (landingIndex f t)

/-! ### Drops in another list -/

theorem isSome_findColumn?_of_place {row column : String} {t : Nat} {tree : List Block}
    (h : ((DropTarget.column row column t).place? tree).isSome = true) :
    (findColumn? row column tree).isSome = true := by
  rw [DropTarget.place?] at h
  obtain ⟨p, hp⟩ := Option.isSome_iff_exists.mp h
  obtain ⟨slot, hslot, bs, i, rfl, -, -⟩ := exists_slot_of_inColumn?_place hp
  rw [hslot.findColumn?]
  rfl

theorem dropOn?_barred (h : source.Barred target e.blocks) (s : Supply) :
    (e.dropOn? source target s).1 = none := by
  match source, target with
  | .palette kind, .column row column t =>
    obtain rfl : kind = .row := h
    rfl
  | .canvas id, .column row column t =>
    obtain ⟨b, hb, hkind⟩ := h
    exact moveIntoColumn?_of_row hb hkind
  | .palette _, .canvas _ | .canvas _, .canvas _ | .nested .., _ => exact h.elim

/-- A new block stands where it is dropped. -/
theorem dropOn?_added {kind : Kind} {p : Place}
    (hbarred : ¬ (DragSource.palette kind).Barred target e.blocks)
    (hp : target.place? e.blocks = some p) (s : Supply) :
    ∃ e', (e.dropOn? (.palette kind) target s).1 = some e' ∧
      ∃ b, b.kind = kind ∧ StandsAt b p e.blocks e'.blocks := by
  cases target with
  | canvas t =>
    obtain ⟨minted, -, b, hkind, -, hmade⟩ := yields_addBlock (e := e) kind (some t) s
    refine ⟨(e.addBlock kind (some t) s).1.2, rfl, b, hkind, ?_⟩
    rw [hmade]
    cases hp
    exact standsAt_insertUpTo t b e.blocks
  | column row column t =>
    have hcolumn := isSome_findColumn?_of_place (Option.isSome_of_mem hp)
    obtain ⟨m, hm⟩ :=
      Option.isSome_iff_exists.mp (isSome_addToColumn? hbarred hcolumn (some t) s)
    obtain ⟨minted, -, hmade⟩ := yields_addToColumn? (e := e) kind (some t) s
    obtain ⟨b, blocks, hkind, -, hput, rfl⟩ := hmade m hm
    obtain ⟨q, hq, hstands⟩ := standsAt_of_putIntoColumn? hput
    obtain rfl : p = q := Option.some.inj (hp.symm.trans hq)
    exact ⟨(e.select b.id).record blocks, congrArg (Option.map _) hm, .content b, hkind, hstands⟩

/-- A block that is there is taken to every other list that is there. -/
theorem dropOn?_accepted {origin : Place} (hwithin : ¬ source.Within target)
    (hbarred : ¬ source.Barred target e.blocks) (horigin : source.place? e.blocks = some origin)
    (htarget : (target.place? e.blocks).isSome = true) (s : Supply) :
    ∃ e', (e.dropOn? source target s).1 = some e' := by
  match source, target with
  | .palette kind, _ => cases horigin
  | .canvas id, .canvas t => exact absurd trivial hwithin
  | .canvas id, .column row column t =>
    obtain ⟨i, hi, -⟩ := Option.map_eq_some_iff.mp horigin
    obtain ⟨x, hx, hfind⟩ := exists_item_of_findIdx? hi
    have hkind : x.kind ≠ .row := fun hkind => hbarred ⟨x, hfind, hkind⟩
    cases x with
    | row rowId l => exact absurd rfl hkind
    | content b =>
      obtain ⟨blocks, -, hmove⟩ :=
        exists_moveIntoColumn? hi hx hkind (isSome_findColumn?_of_place htarget) t
      exact ⟨_, hmove⟩
  | .nested row column id, .canvas t =>
    obtain ⟨b, rest, htake⟩ := exists_takeFromColumn? horigin
    exact ⟨_, congrArg (Option.map _) htake⟩
  | .nested row column id, .column toRow toColumn t =>
    obtain ⟨b, rest, htake⟩ := exists_takeFromColumn? horigin
    obtain ⟨blocks, -, hmove⟩ :=
      exists_moveNested? htake (isSome_findColumn?_of_place htarget) t
    refine ⟨e.record blocks, ?_⟩
    show e.dropNested? row column toRow toColumn id t = _
    rw [dropNested?, if_pos (DragSource.differ_of_not_within hwithin), hmove]

end

end Editor

/-- A move to another list goes from the place of what is dragged to the place of the target. -/
theorem DragSource.places_of_moveTo? {source : DragSource} {target : DropTarget}
    {tree : List Block} {m : Operation} (hwithin : ¬ source.Within target)
    (h : source.moveTo? target tree = some m) :
    m.origin? tree = source.place? tree ∧ ∀ others, m.target? others = target.place? others := by
  match source, target with
  | .palette kind, _ => cases h
  | .canvas id, .canvas t => exact absurd trivial hwithin
  | .canvas id, .column row column t =>
    cases h
    exact ⟨rfl, fun _ => rfl⟩
  | .nested row column id, .canvas t =>
    cases h
    exact ⟨rfl, fun _ => rfl⟩
  | .nested row column id, .column toRow toColumn t =>
    rw [moveTo?, if_pos (differ_of_not_within hwithin)] at h
    cases h
    exact ⟨rfl, fun _ => rfl⟩

/-- **A drop lands where it was seen**, whatever the session: see `Landing`. -/
theorem drop_lands (e : Editor) (target : DropTarget) (s : Supply) :
    Landing e target ((Operation.drop target).run e s).1 := by
  constructor
  case idle =>
    cases hsource : e.drag.source with
    | none =>
      rw [Editor.run_drop_of_none hsource]
      rfl
    | some source =>
      rw [Editor.run_drop_of_source hsource]
      have hdrag := Editor.dropOn?_drag (e := e.cancelDrag) source target s
      cases hdrop : (e.cancelDrag.dropOn? source target s).1 with
      | none => rfl
      | some e' => exact hdrag e' hdrop
  case nothing =>
    intro h
    rw [Editor.run_drop_of_none h]
  case onCanvas =>
    rintro id f t hsource rfl hf ht
    rw [Editor.run_drop_of_source hsource]
    have hlt : f < e.blocks.length := (List.findIdx?_eq_some_iff_findIdx_eq.mp hf).1
    have hdrop : (e.cancelDrag.dropOn? (.canvas id) (.canvas t) s).1 =
        (reorder? f (landingIndex f t) e.blocks).map fun l' => e.cancelDrag.record l' := by
      show (((e.blocks.findIdx? fun b => b.id == id).bind fun f => _ ) : Option Editor) = _
      rw [hf]
      rfl
    obtain ⟨⟨b, bs, hput, hbs⟩, hstays⟩ :=
      Editor.lands_of_reorder? (fun bs => bs) hlt ht rfl hdrop
    exact ⟨⟨b, hbs ▸ hput⟩, hstays⟩
  case inColumn =>
    rintro row column id c f t hsource rfl hc hf ht
    rw [Editor.run_drop_of_source hsource]
    have hlt : f < c.blocks.length := (List.findIdx?_eq_some_iff_findIdx_eq.mp hf).1
    obtain ⟨slot, hslot, hfill⟩ := exists_slot_of_findColumn? hc
    obtain ⟨⟨b, bs, hput, hbs⟩, hstays⟩ := Editor.lands_of_reorder? slot.fill hlt ht hfill
      (Editor.dropNested?_within (e := e.cancelDrag) hslot hfill hf t)
    exact ⟨⟨slot, hslot, hfill, b, bs, hput, hbs⟩, hstays⟩
  case barred =>
    intro source hsource hbarred
    have hnone := Editor.dropOn?_barred (e := e.cancelDrag) hbarred s
    rw [Editor.run_drop_of_source hsource, hnone]
    rfl
  case added =>
    intro kind p hsource hbarred hp
    obtain ⟨e', hdrop, hlands⟩ := Editor.dropOn?_added (e := e.cancelDrag) hbarred hp s
    rw [Editor.run_drop_of_source hsource, hdrop]
    exact ⟨rfl, hlands⟩
  case moved =>
    intro source origin hsource hwithin hbarred horigin htarget
    obtain ⟨e', hdrop⟩ :=
      Editor.dropOn?_accepted (e := e.cancelDrag) hwithin hbarred horigin htarget s
    have hblock : source.isBlock = true := by
      cases source <;> first | rfl | cases horigin
    obtain ⟨m, hm, b, others, origin', p, horigin', hp, hold, hnew⟩ :=
      Editor.dropOn?_moved hblock target s e' hdrop
    obtain ⟨hfrom, hto⟩ := DragSource.places_of_moveTo? hwithin hm
    have hsame := horigin.symm.trans (hfrom.symm.trans horigin')
    obtain rfl : origin = origin' := Option.some.inj hsame
    rw [Editor.run_drop_of_source hsource, hdrop]
    exact ⟨rfl, b, others, p, hold, (hto others).symm.trans hp, hnew⟩

/-- A block that is dropped on the third one stands right before it. -/
theorem drop_lands_of_three_blocks :
    let text (id : String) : Block := .content ⟨id, .text, []⟩
    let e := (Editor.start [text "a", text "b", text "c"] .initial).startDrag (.canvas "a")
    let r := ((Operation.drop (.canvas 2)).run e ⟨Nat.repr, 0⟩).1
    (∃ b, PutBefore b 0 2 e.blocks r.2.blocks) ∧ Stays e 0 2 r ∧ r.1 = .accepted ∧
      r.2.blocks = [text "b", text "a", text "c"] := by
  intro text e r
  obtain ⟨hput, hstays⟩ :=
    (drop_lands e (.canvas 2) ⟨Nat.repr, 0⟩).onCanvas "a" 0 2 rfl rfl rfl (by decide)
  exact ⟨hput, hstays, rfl, rfl⟩

end Letterpress
