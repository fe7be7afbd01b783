/-
  What a preset does to a row.

  * `Refitted widths minted old new`: the new columns are the old ones, cut or filled up to the
    widths, with the same blocks in the same reading order.
  * `Relaid l preset minted l'`: the row has the columns of the preset, and nothing else is changed.
  * `yields_relaid`: so it is after each preset, whatever the row holds.
  * `preset_keeps_reading_order`: the operation does this to the one row and records the tree once.
-/
import Letterpress.Proofs.Editor.Identifiers
import Letterpress.Proofs.Editor.Place

namespace Letterpress

open Minting Editing

/-! ## Columns -/

/-- The column without its width. -/
def Column.unsized (c : Column) : Column := { c with width := "" }

/-- The new columns are as many as there are widths, with these in order.  Read one after the other
    they hold the blocks of the old ones.  Columns that are kept keep what they are, and all but the
    last one of a row that has shrunk also their blocks; columns that are added are empty. -/
structure Refitted (widths minted : List String) (old new : List Column) : Prop where
  width : new.map (·.width) = widths
  reading : new.flatMap (·.blocks) = old.flatMap (·.blocks)
  kept : ∀ (i : Nat) c c', old[i]? = some c → new[i]? = some c' → c'.id = c.id ∧ c'.style = c.style
  untouched : ∀ (i : Nat) c c', old[i]? = some c → new[i]? = some c' →
    (widths.length < old.length → i + 1 ≠ widths.length) → c'.blocks = c.blocks
  added : (new.drop old.length).map (·.id) = minted
  empty : ∀ c ∈ new.drop old.length, c.blocks = [] ∧ c.style = none

/-- The row with another preset: a custom one changes nothing else, and all others the columns. -/
inductive Relaid (l : RowLayout) : Preset → List String → RowLayout → Prop
  | custom : Relaid l .custom [] { l with preset := .custom }
  | fitted {preset : Preset} {widths minted : List String} {columns : List Column}
      (hwidths : preset.widths? = some widths) (h : Refitted widths minted l.columns columns) :
      Relaid l preset minted { l with preset, columns }

namespace Editing

theorem width_withWidths {widths : List String} {columns : List Column}
    (h : columns.length = widths.length) : (withWidths widths columns).map (·.width) = widths := by
  induction columns generalizing widths with
  | nil =>
    obtain rfl := List.eq_nil_of_length_eq_zero h.symm
    rfl
  | cons c columns ih =>
    cases widths with
    | nil => cases h
    | cons width widths => simp [withWidths, ih (by simpa using h)]

/-- Only the last column gets blocks. -/
theorem dropLast_appendToLast (overflow : List ContentBlock) (columns : List Column) :
    (appendToLast overflow columns).dropLast = columns.dropLast := by
  induction columns with
  | nil => rfl
  | cons c columns ih =>
    cases columns with
    | nil => rfl
    | cons c' columns =>
      have hstep : appendToLast overflow (c :: c' :: columns) =
        c :: appendToLast overflow (c' :: columns) := rfl
      have hne : appendToLast overflow (c' :: columns) ≠ [] := by
        cases columns <;> exact List.cons_ne_nil _ _
      rw [hstep, List.dropLast_cons_of_ne_nil hne, ih]
      rfl

theorem appendToLast_nil (columns : List Column) : appendToLast [] columns = columns := by
  induction columns with
  | nil => rfl
  | cons c columns ih =>
    cases columns with
    | nil => simp [appendToLast]
    | cons c' columns => exact congrArg (c :: ·) ih

/-- Items at one index of two lists that look alike look alike. -/
theorem exists_getElem?_of_map_eq {α β : Type} {v : α → β} {xs ys : List α} {i : Nat} {x : α}
    (h : xs.map v = ys.map v) (hx : xs[i]? = some x) : ∃ y, ys[i]? = some y ∧ v y = v x := by
  have hi : (ys.map v)[i]? = some (v x) := by
    rw [← h, List.getElem?_map, hx]
    rfl
  rw [List.getElem?_map] at hi
  exact Option.map_eq_some_iff.mp hi

section

variable {widths minted : List String} {columns kept added new : List Column} {n i : Nat}

/-- The columns that stay are as many as there are widths for, and look as they did. -/
theorem looks_of_kept (overflow : List ContentBlock) (n : Nat) (columns : List Column) :
    (appendToLast overflow (columns.take n)).length = min n columns.length ∧
      (appendToLast overflow (columns.take n)).map (fun c => (c.id, c.style)) =
        (columns.take n).map fun c => (c.id, c.style) := by
  have hlooks : (appendToLast overflow (columns.take n)).map (fun c => (c.id, c.style)) =
      (columns.take n).map fun c => (c.id, c.style) := map_appendToLast (fun _ _ => rfl) _ _
  have hlength := congrArg List.length hlooks
  rw [List.length_map, List.length_map, List.length_take] at hlength
  exact ⟨hlength, hlooks⟩

/-- A column that stays and is not the last one of fewer columns has the blocks that it had. -/
theorem kept_of_not_last (hi : i < n) (hlast : n < columns.length → i + 1 ≠ n) :
    (appendToLast ((columns.drop n).flatMap (·.blocks)) (columns.take n))[i]? = columns[i]? := by
  by_cases hshrunk : n < columns.length
  · have hbefore : i + 1 < n := by
      have := hlast hshrunk
      omega
    have hlength := (looks_of_kept ((columns.drop n).flatMap (·.blocks)) n columns).1
    have hdrop := congrArg (·[i]?) (dropLast_appendToLast ((columns.drop n).flatMap (·.blocks))
      (columns.take n))
    simp only [List.getElem?_dropLast, hlength, List.length_take] at hdrop
    rw [if_pos (by omega), if_pos (by omega), List.getElem?_take, if_pos hi] at hdrop
    exact hdrop
  · rw [List.drop_eq_nil_of_le (by omega), List.flatMap_nil, appendToLast_nil,
      List.take_of_length_le (by omega)]

theorem unsized_withWidths (widths : List String) (columns : List Column) :
    (withWidths widths columns).map Column.unsized = columns.map Column.unsized :=
  map_withWidths (fun _ _ => rfl) widths columns

/-- Columns before the added ones are those that are kept. -/
theorem exists_kept (hi : i < kept.length) {c : Column}
    (hc : (withWidths widths (kept ++ added))[i]? = some c) :
    ∃ k, kept[i]? = some k ∧ k.unsized = c.unsized := by
  obtain ⟨k, hk, heq⟩ := exists_getElem?_of_map_eq (unsized_withWidths widths (kept ++ added)) hc
  rw [List.getElem?_append_left hi] at hk
  exact ⟨k, hk, heq⟩

/-- Columns behind all old ones are those that are added. -/
theorem unsized_behind (hkept : kept.length = min widths.length columns.length)
    (hlength : added.length = widths.length - columns.length) :
    ((withWidths widths (kept ++ added)).drop columns.length).map Column.unsized =
      added.map Column.unsized := by
  have hbehind : (kept ++ added).drop columns.length = added := by
    by_cases hshrunk : widths.length < columns.length
    · obtain rfl : added = [] := List.eq_nil_of_length_eq_zero (by omega)
      rw [List.append_nil, List.drop_eq_nil_of_le (by omega)]
    · exact List.drop_left' (by omega)
  rw [List.map_drop, unsized_withWidths, ← List.map_drop, hbehind]

/-- Columns that are cut or filled up to some widths are refitted. -/
theorem refitted_of_added (hwidths : widths ≠ []) (hminted : minted = added.map (·.id))
    (hlength : added.length = widths.length - columns.length)
    (hempty : ∀ c ∈ added, c.blocks = [] ∧ c.style = none) :
    Refitted widths minted columns (withWidths widths
      (appendToLast ((columns.drop widths.length).flatMap (·.blocks))
        (columns.take widths.length) ++ added)) := by
  have hreading := blocks_of_refitted hwidths columns
    (List.flatMap_eq_nil_iff.mpr fun c hc => (hempty c hc).1)
  have hstays := fun i => @kept_of_not_last columns widths.length i
  obtain ⟨hkept, hlooks⟩ :=
    looks_of_kept ((columns.drop widths.length).flatMap (·.blocks)) widths.length columns
  generalize appendToLast ((columns.drop widths.length).flatMap (·.blocks))
    (columns.take widths.length) = kept at *
  have hwidth : (withWidths widths (kept ++ added)).map (·.width) = widths := by
    refine width_withWidths ?_
    rw [List.length_append, hkept, hlength]
    omega
  have hbehind := unsized_behind hkept hlength
  -- an index of an old and of a new column is one of a column that is kept
  have hat : ∀ (i : Nat) c c', columns[i]? = some c →
      (withWidths widths (kept ++ added))[i]? = some c' →
        i < widths.length ∧ ∃ k, kept[i]? = some k ∧ k.unsized = c'.unsized := by
    intro i c c' hc hc'
    have hi : i < columns.length := (List.getElem?_eq_some_iff.mp hc).1
    have hi' := (List.getElem?_eq_some_iff.mp hc').1
    rw [← List.length_map, hwidth] at hi'
    exact ⟨hi', exists_kept (by omega) hc'⟩
  constructor
  case width => exact hwidth
  case reading => exact hreading
  case kept =>
    intro i c c' hc hc'
    obtain ⟨hi, k, hk, heq⟩ := hat i c c' hc hc'
    obtain ⟨d, hd, hlook⟩ := exists_getElem?_of_map_eq hlooks hk
    rw [List.getElem?_take, if_pos hi, hc] at hd
    cases hd
    obtain ⟨hid, hstyle⟩ := Prod.mk.inj hlook
    exact ⟨(congrArg (·.id) heq).symm.trans hid.symm,
      (congrArg (·.style) heq).symm.trans hstyle.symm⟩
  case untouched =>
    intro i c c' hc hc' hlast
    obtain ⟨hi, k, hk, heq⟩ := hat i c c' hc hc'
    rw [hstays i hi hlast, hc] at hk
    cases hk
    exact (congrArg (·.blocks) heq).symm
  case added =>
    have hids := congrArg (List.map (·.id)) hbehind
    rw [List.map_map, List.map_map] at hids
    exact hids.trans hminted.symm
  case empty =>
    intro c hc
    obtain ⟨d, hd, heq⟩ := List.mem_map.mp (hbehind ▸ List.mem_map_of_mem hc)
    obtain ⟨hblocks, hstyle⟩ := hempty d hd
    exact ⟨(congrArg (·.blocks) heq).symm.trans hblocks,
      (congrArg (·.style) heq).symm.trans hstyle⟩

end

/-- A layout of columns mints those that it adds, and lays out the row. -/
theorem yields_relaid (preset : Preset) (l : RowLayout) :
    Yields (Editing.applyPreset preset l) fun minted l' => Relaid l preset minted l' := by
  rw [Editing.applyPreset]
  cases hwidths : preset.widths? with
  | none =>
    obtain rfl : preset = .custom := by
      cases preset <;> first | rfl | cases hwidths
    exact yields_pure .custom
  | some widths =>
    refine (yields_newColumns _).bind fun minted added hadded => yields_pure ?_
    obtain ⟨hminted, hlength, hempty⟩ := hadded
    rw [List.append_nil]
    exact .fitted hwidths
      (refitted_of_added (widths?_ne_nil hwidths) hminted hlength hempty)

end Editing

/-! ## The operation -/

/-- **A preset keeps the reading order of a row**: the row is laid out anew, with new identifiers
    for the columns that it gets; all else in the session stays, and the tree is recorded once. -/
theorem preset_keeps_reading_order {e : Editor} {row : String} {l : RowLayout}
    (hrow : findRow? row e.blocks = some l) (preset : Preset) (s : Supply) :
    ∃ before after l' minted s', e.blocks = before ++ .row row l :: after ∧
      (∀ b ∈ before, isRowWith row b = false) ∧ Relaid l preset minted l' ∧ s.Mints minted s' ∧
      (∀ known, s.Fresh known → AllNew known minted) ∧
      let tree := before ++ .row row l' :: after
      let past := e.history.snapshots.take (e.history.index + 1)
      (Operation.applyPreset row preset).run e s =
        ((.accepted, { e with
          blocks := tree
          history := ⟨past ++ [tree], past.length⟩
          dirty := true }), s') := by
  obtain ⟨before, after, hblocks, hbefore, hchange⟩ := exists_cut_of_findRow? (β := Unit) hrow
  obtain ⟨minted, hmints, hrelaid⟩ := yields_relaid preset l s
  refine ⟨before, after, _, minted, _, hblocks, hbefore, hrelaid, hmints,
    fun known hfresh => (hfresh.mints hmints).1, ?_⟩
  have hrun : e.applyPreset? row preset s =
      (some (e.record (before ++ .row row (Editing.applyPreset preset l s).1 :: after)),
        (Editing.applyPreset preset l s).2) := by
    rw [Editor.applyPreset?, hrow]
    simp only [bind_run, hchange]
    rfl
  rw [Operation.run, bind_run, hrun]
  rfl

/-- A third column goes, and its blocks follow those of the second one. -/
theorem preset_keeps_reading_order_of_three_columns :
    let column (id width : String) (ids : List String) : Column :=
      ⟨id, width, ids.map fun id => ⟨id, .text, []⟩, none⟩
    let l : RowLayout := ⟨.threeEqual,
      [column "a" "33.33%" ["1"], column "b" "33.34%" ["2"], column "c" "33.33%" ["3", "4"]],
      RowLayout.initialGap, true, .initial⟩
    let l' : RowLayout := { l with
      preset := .twoLeftHeavy
      columns := [column "a" "66%" ["1"], column "b" "34%" ["2", "3", "4"]] }
    let e := Editor.start [.row "r" l] .initial
    let op := Operation.applyPreset "r" .twoLeftHeavy
    findRow? "r" e.blocks = some l ∧ (∃ minted, Relaid l .twoLeftHeavy minted l') ∧
      (op.run e .tally).1.1 = .accepted ∧ (op.run e .tally).1.2.blocks = [.row "r" l'] := by
  intro column l l' e op
  have hrow : findRow? "r" e.blocks = some l := rfl
  obtain ⟨before, after, k, minted, s', hblocks, -, hrelaid, -, -, hrun⟩ :=
    preset_keeps_reading_order hrow .twoLeftHeavy .tally
  have htree : (op.run e .tally).1.2.blocks = [.row "r" l'] := rfl
  obtain ⟨rfl, rfl⟩ : before = [] ∧ after = [] := by
    cases before with
    | nil => exact ⟨rfl, (List.cons.inj hblocks).2.symm⟩
    | cons b before => simp [e, Editor.start] at hblocks
  obtain rfl : k = l' := by
    rw [hrun] at htree
    simpa using htree
  exact ⟨hrow, ⟨minted, hrelaid⟩, by rw [hrun], htree⟩

end Letterpress
