/-
  Blocks without their identifiers.

  * `Block.anonymous` leaves out the identifiers of a block, of its columns and of the blocks in
    them; what stays is the layout and the props.
  * `Block.anonymous_duplicate`: a copy differs from its original in identifiers alone.
  * `Column.ofJson_anonymous`: identifiers can be left out before a column is written and read, or
    after.
  * `RowAlike`: members that hold the same row, but for identifiers.  Members of new rows and of
    rows that differ in identifiers are alike, they stay so whatever is set over them, and they are
    read as rows that differ in identifiers (`RowAlike.ofMembers?_eq`).
-/
import Letterpress.Block.Defaults
import Letterpress.Proofs.Block.Minting
import Letterpress.Proofs.Block.Reading

namespace Letterpress

open Minting

/-! ## Leaving identifiers out -/

/-- The block without its identifier. -/
def ContentBlock.anonymous (b : ContentBlock) : ContentBlock := { b with id := "" }

/-- The column without its identifier and those of its blocks. -/
def Column.anonymous (c : Column) : Column :=
  { c with id := "", blocks := c.blocks.map ContentBlock.anonymous }

/-- The row without the identifiers of its columns and of the blocks in them. -/
def RowLayout.anonymous (l : RowLayout) : RowLayout :=
  { l with columns := l.columns.map Column.anonymous }

/-- The block without the identifiers in it. -/
def Block.anonymous : Block → Block
  | .content b => .content b.anonymous
  | .row _ l => .row "" l.anonymous

/-! ## Copies -/

/-- What each item of a list keeps, the list keeps. -/
theorem ensures_mapM_map {α β γ : Type} {f : α → Minting β} {u : α → γ} {v : β → γ}
    (hf : ∀ a, Ensures (f a) fun b => v b = u a) (l : List α) :
    Ensures (l.mapM f) fun bs => bs.map v = l.map u := by
  induction l with
  | nil => exact ensures_pure rfl
  | cons a l ih =>
    rw [List.mapM_cons]
    refine (hf a).bind fun b hb => ih.bind fun bs hbs => ensures_pure ?_
    rw [List.map_cons, List.map_cons, hb, hbs]

theorem ContentBlock.anonymous_duplicate (b : ContentBlock) :
    Ensures b.duplicate fun copy => copy.anonymous = b.anonymous :=
  ensures_bind fun _ => ensures_pure rfl

theorem Column.anonymous_duplicate (c : Column) :
    Ensures c.duplicate fun copy => copy.anonymous = c.anonymous := by
  refine ensures_bind fun id => ?_
  refine (ensures_mapM_map ContentBlock.anonymous_duplicate c.blocks).bind fun blocks h =>
    ensures_pure ?_
  simp only [anonymous, h]

theorem RowLayout.anonymous_duplicate (l : RowLayout) :
    Ensures l.duplicate fun copy => copy.anonymous = l.anonymous := by
  refine (ensures_mapM_map Column.anonymous_duplicate l.columns).bind fun columns h =>
    ensures_pure ?_
  simp only [anonymous, h]

/-- **A copy differs from its original in identifiers alone.** -/
theorem Block.anonymous_duplicate (b : Block) :
    Ensures b.duplicate fun copy => copy.anonymous = b.anonymous := by
  cases b with
  | content b =>
    refine b.anonymous_duplicate.bind fun copy h => ensures_pure ?_
    simp only [anonymous, h]
  | row id l =>
    refine l.anonymous_duplicate.bind fun copy h => ensures_bind fun id => ensures_pure ?_
    simp only [anonymous, h]

/-! ## New rows -/

theorem Column.anonymous_make (width : String) :
    Ensures (make width) fun c => c.anonymous = ⟨"", width, [], none⟩ :=
  ensures_bind fun _ => ensures_pure rfl

/-- A new row is given by its preset, but for identifiers. -/
theorem RowLayout.anonymous_make (preset : Preset) :
    Ensures (make preset) fun l => l.anonymous =
      ⟨preset, preset.initialWidths.map fun width => ⟨"", width, [], none⟩, initialGap, true,
        .initial⟩ := by
  refine (ensures_mapM_map Column.anonymous_make preset.initialWidths).bind fun columns h =>
    ensures_pure ?_
  simp only [anonymous, h]

/-! ## Writing and reading -/

section

variable {α β γ δ ε : Type}

/-- Steps that differ in what is left out alone go on alike. -/
theorem map_bind_congr {x x' : Except ε α} {f f' : α → Except ε β} {u : α → γ} {v : β → δ}
    (hx : x.map u = x'.map u) (hf : ∀ a a', u a = u a' → (f a).map v = (f' a').map v) :
    (x >>= f).map v = (x' >>= f').map v := by
  cases x with
  | error e =>
    cases x' with
    | error e' =>
      cases hx
      rfl
    | ok a' => cases hx
  | ok a =>
    cases x' with
    | error e' => cases hx
    | ok a' => exact hf a a' (Except.ok.inj hx)

theorem map_bind_congr_right {x : Except ε α} {f f' : α → Except ε β} {v : β → δ}
    (hf : ∀ a, (f a).map v = (f' a).map v) : (x >>= f).map v = (x >>= f').map v := by
  cases x with
  | error e => rfl
  | ok a => exact hf a

theorem toOption_map_congr {x x' : Except ε α} {u : α → γ} (h : x.map u = x'.map u) :
    x.toOption.map u = x'.toOption.map u := by
  have htoOption (y : Except ε α) : y.toOption.map u = (y.map u).toOption := by cases y <;> rfl
  rw [htoOption, htoOption, h]

/-- What can be left out of each item before it is written and read, or after, can be left out of
    a list so. -/
theorem map_mapM_map {write : α → Json} {read : Json → Except ε α} {u : α → α}
    (h : ∀ a, (read (write a)).map u = read (write (u a))) (l : List α) :
    ((l.map write).mapM read).map (List.map u) = ((l.map u).map write).mapM read := by
  induction l with
  | nil => rfl
  | cons a l ih =>
    rw [List.map_cons, List.map_cons, List.map_cons, List.mapM_cons, List.mapM_cons, ← h, ← ih]
    cases read (write a) with
    | error e => rfl
    | ok b => cases (l.map write).mapM read <;> rfl

end

theorem ContentBlock.ofJson_anonymous (b : ContentBlock) :
    (ofJson b.toJson).map anonymous = ofJson b.anonymous.toJson := by
  rw [ofJson_toJson, ofJson_toJson]
  by_cases h : (Kind.ofName b.kind.name).isRow = true <;> simp [ofRaw, anonymous, h, Except.map]

/-- **Identifiers can be left out before or after** a column is written and read. -/
theorem Column.ofJson_anonymous (c : Column) :
    (ofJson c.toJson).map anonymous = ofJson c.anonymous.toJson := by
  rw [ofJson_toJson, ofJson_toJson]
  dsimp only [anonymous]
  rw [← map_mapM_map ContentBlock.ofJson_anonymous]
  cases (c.blocks.map ContentBlock.toJson).mapM ContentBlock.ofJson with
  | error fault => rfl
  | ok blocks => cases Json.optional ColumnStyle.ofJson? (c.style.map ColumnStyle.toJson) <;> rfl

/-! ## Members of rows -/

/-- Fields of a row that hold the same columns, but for identifiers. -/
inductive ColumnsAlike : Option Json → Option Json → Prop where
  | same (field : Option Json) : ColumnsAlike field field
  | written {cs cs' : List Column} (h : cs.map Column.anonymous = cs'.map Column.anonymous) :
    ColumnsAlike (some (.array (cs.map Column.toJson))) (some (.array (cs'.map Column.toJson)))

theorem ColumnsAlike.listOfJson_eq {field field' : Option Json} (h : ColumnsAlike field field') :
    (Column.listOfJson field).map (List.map Column.anonymous) =
      (Column.listOfJson field').map (List.map Column.anonymous) := by
  cases h with
  | same => rfl
  | written h =>
    rw [Column.listOfJson, Column.listOfJson, map_mapM_map Column.ofJson_anonymous,
      map_mapM_map Column.ofJson_anonymous, h]

/-- Members that hold the same row, but for identifiers. -/
structure RowAlike (ms ms' : Members) : Prop where
  ordered : ms.Ordered
  ordered' : ms'.Ordered
  columns : ColumnsAlike (ms.get? "columns") (ms'.get? "columns")
  others : ∀ key, key ≠ "columns" → ms.get? key = ms'.get? key

namespace RowAlike

variable {ms ms' : Members}

theorem insert (h : RowAlike ms ms') (key : String) (v : Json) :
    RowAlike (Dict.insert key v ms) (Dict.insert key v ms') where
  ordered := Dict.ordered_insert h.ordered
  ordered' := Dict.ordered_insert h.ordered'
  columns := by
    rw [Dict.get?_insert, Dict.get?_insert]
    split
    · exact .same _
    · exact h.columns
  others k hk := by rw [Dict.get?_insert, Dict.get?_insert, h.others k hk]

theorem extend (h : RowAlike ms ms') (update : Members) :
    RowAlike (Dict.extend ms update) (Dict.extend ms' update) := by
  induction update generalizing ms ms' with
  | nil => exact h
  | cons m update ih => exact ih (h.insert m.1 m.2)

/-- Rows that differ in identifiers have members that are alike. -/
theorem of_anonymous {l l' : RowLayout} (h : l.anonymous = l'.anonymous) :
    RowAlike l.toMembers l'.toMembers := by
  obtain ⟨preset, columns, gap, stack, style⟩ := l
  obtain ⟨preset', columns', gap', stack', style'⟩ := l'
  simp only [RowLayout.anonymous, RowLayout.mk.injEq] at h
  obtain ⟨rfl, hcolumns, rfl, rfl, rfl⟩ := h
  refine ⟨Dict.ordered_ofPairs _, Dict.ordered_ofPairs _, ?_, fun key hkey => ?_⟩
  · rw [RowLayout.get?_toMembers_columns, RowLayout.get?_toMembers_columns]
    exact .written hcolumns
  · simp [RowLayout.toMembers, Dict.ofPairs, Dict.extend, Dict.get?_insert, hkey]

/-- **Members that are alike are read as rows that differ in identifiers alone.** -/
theorem ofMembers?_eq (h : RowAlike ms ms') :
    (RowLayout.ofMembers? ms).map RowLayout.anonymous =
      (RowLayout.ofMembers? ms').map RowLayout.anonymous := by
  have hcolumns := h.columns.listOfJson_eq
  rw [RowLayout.ofMembers?, RowLayout.ofMembers?, RowLayout.ofJson_object h.ordered,
    RowLayout.ofJson_object h.ordered', h.others "preset" (by decide), h.others "gap" (by decide),
    h.others "stackOnMobile" (by decide), h.others "style" (by decide)]
  refine toOption_map_congr (map_bind_congr hcolumns fun columns columns' h => ?_)
  -- what is read after the columns is read from the same fields
  refine map_bind_congr_right fun preset => map_bind_congr_right fun gap =>
    map_bind_congr_right fun stack => map_bind_congr_right fun style => ?_
  exact congrArg (fun cs => Except.ok (RowLayout.mk preset cs gap stack style)) h

end RowAlike

end Letterpress
