/-
  Blocks that are written and read back.

  There is one lemma for each type: what is finite and has kinds of names is read as what was
  written, each optional field as absent or present as it was (`Block.ofJson?_toJson`).
-/
import Letterpress.Proofs.Block.Storable
import Letterpress.Proofs.Json.RoundTrip

namespace Letterpress

open Json (record?_record optional_map optional_text optional_double double?_real mapM_map)
open Json.Number (Finite)

/-! ## Styles -/

theorem Padding.ofJson?_toJson {s : Padding} (h : ∀ x ∈ s.sides, x.isFinite = true) :
    ofJson? s.toJson = some s := by
  simp only [sides, List.forall_mem_cons] at h
  obtain ⟨htop, hright, hbottom, hleft, -⟩ := h
  rw [ofJson?, toJson, record?_record]
  · simp only [List.map_cons, List.map_nil, Option.bind_eq_bind, Option.bind_some, Json.absent,
      double?_real htop, double?_real hright, double?_real hbottom, double?_real hleft]
    rfl
  · rfl
  · decide

theorem Padding.optional_ofJson? {o : Option Padding}
    (h : ∀ s ∈ o, ∀ x ∈ s.sides, x.isFinite = true) :
    Json.optional ofJson? (o.map toJson) = some o :=
  optional_map fun s hs => ⟨Json.noConfusion, ofJson?_toJson (h s hs)⟩

theorem ColumnStyle.ofJson?_toJson {s : ColumnStyle} (h : ∀ x ∈ s.doubles, x.isFinite = true) :
    ofJson? s.toJson = some s := by
  simp only [doubles, List.forall_mem_append, List.forall_mem_flatMap, Option.mem_toList] at h
  obtain ⟨⟨hopacity, hpadding⟩, hradius⟩ := h
  rw [ofJson?, toJson, record?_record]
  · simp only [List.map_cons, List.map_nil, Option.bind_eq_bind, Option.bind_some, optional_text,
      optional_double hopacity, Padding.optional_ofJson? hpadding, optional_double hradius]
    rfl
  · rfl
  · decide

theorem RowStyle.ofJson?_toJson {s : RowStyle} (h : ∀ x ∈ s.doubles, x.isFinite = true) :
    ofJson? s.toJson = some s := by
  simp only [doubles, List.forall_mem_append, List.forall_mem_flatMap, Option.mem_toList] at h
  obtain ⟨hpadding, hradius⟩ := h
  rw [ofJson?, toJson, record?_record]
  · simp only [List.map_cons, List.map_nil, Option.bind_eq_bind, Option.bind_some, optional_text,
      Padding.optional_ofJson? hpadding, optional_double hradius]
    rfl
  · rfl
  · decide

theorem Preset.ofJson?_name (s : Preset) : ofJson? (.string s.name) = some s := by
  cases s <;> rfl

/-! ## Blocks -/

section

variable {p : Json.Number → Prop}

theorem ContentBlock.Storable.ofRaw_toRaw {b : ContentBlock} (h : b.Storable p) :
    ContentBlock.ofRaw b.toRaw = .ok b := by
  rw [ContentBlock.ofRaw, if_neg]
  · rfl
  · rw [ContentBlock.toRaw, h.notRow]
    exact Bool.false_ne_true

theorem ContentBlock.Storable.ofJson_toJson {b : ContentBlock} (h : b.Storable p) :
    ContentBlock.ofJson b.toJson = .ok b := by
  have hkind : Kind.ofName b.kind.name = b.kind := h.isNamed
  rw [ContentBlock.ofJson_toJson, hkind]
  exact h.ofRaw_toRaw

end

theorem Column.Storable.ofJson_toJson {c : Column} (h : c.Storable Finite) :
    Column.ofJson c.toJson = .ok c := by
  have hblocks : (c.blocks.map ContentBlock.toJson).mapM ContentBlock.ofJson = .ok c.blocks :=
    mapM_map fun b hb => (h.blocks b hb).ofJson_toJson
  have hstyle : Json.optional ColumnStyle.ofJson? (c.style.map ColumnStyle.toJson) =
      some c.style :=
    optional_map fun s hs => ⟨Json.noConfusion, ColumnStyle.ofJson?_toJson (h.style s hs)⟩
  rw [Column.ofJson_toJson, hblocks, hstyle]
  rfl

theorem RowLayout.Storable.ofJson_toJson {l : RowLayout} (h : l.Storable Finite) :
    RowLayout.ofJson l.toJson = .ok l := by
  have hcolumns : Column.listOfJson (some (.array (l.columns.map Column.toJson))) =
      .ok l.columns :=
    mapM_map fun c hc => (h.columns c hc).ofJson_toJson
  have hrecord : l.toJson = Json.record
      [("preset", some (.string l.preset.name)),
       ("columns", some (.array (l.columns.map Column.toJson))), ("gap", some (Json.real l.gap)),
       ("stackOnMobile", some (.bool l.stackOnMobile)), ("style", some l.style.toJson)] := rfl
  rw [RowLayout.ofJson, hrecord, record?_record]
  · simp only [List.map_cons, List.map_nil, orFault_some, except_ok_bind, Json.absent, hcolumns,
      Preset.ofJson?_name, double?_real h.gap, RowStyle.ofJson?_toJson h.style]
    rfl
  · rfl
  · decide

/-- **A block that can be stored is read as what was written.** -/
theorem Block.Storable.ofJson?_toJson {b : Block} (h : b.Storable Finite) :
    Block.ofJson? b.toJson = some b := by
  have hnamed : b.toRaw.kind.IsNamed := by
    cases b with
    | content c => exact ContentBlock.Storable.isNamed h
    | row id l => exact Kind.isNamed_ofName "row"
  have hkind : Kind.ofName b.toRaw.kind.name = b.toRaw.kind := hnamed
  rw [Block.ofJson?, Block.toJson, RawBlock.ofJson?_toJson, hkind, Option.bind_some]
  cases b with
  | content c =>
    have hrow : (Block.content c).toRaw.kind.isRow = false := ContentBlock.Storable.notRow h
    have hread : ContentBlock.ofRaw (Block.content c).toRaw = .ok c :=
      ContentBlock.Storable.ofRaw_toRaw h
    rw [Block.ofRaw, hrow, if_neg Bool.false_ne_true, hread]
    rfl
  | row id l =>
    have hread : RowLayout.ofJson (.object (Block.row id l).toRaw.props) = .ok l :=
      RowLayout.Storable.ofJson_toJson h
    have hrow : (Block.row id l).toRaw.kind.isRow = true := rfl
    rw [Block.ofRaw, hrow, if_pos rfl, hread]
    rfl

end Letterpress
