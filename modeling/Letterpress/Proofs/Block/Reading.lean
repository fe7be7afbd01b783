/-
  What blocks are read as.

  * `Column.ofJson_object`, `RowLayout.ofJson_object`: what is read from an object that repeats no
    key.
  * `RawBlock.ofJson?_toJson`, `ContentBlock.ofJson_toJson`, `Column.ofJson_toJson`: what any block
    and any column is read as once it is written, whether that is the same again or not.
-/
import Letterpress.Block.Block
import Letterpress.Proofs.Json.RoundTrip

namespace Letterpress

open Json (record?_record)

/-! ## Results -/

theorem except_bind_eq_ok {α β ε : Type} {x : Except ε α} {f : α → Except ε β} {b : β}
    (h : (x >>= f) = .ok b) : ∃ a, x = .ok a ∧ f a = .ok b := by
  cases x with
  | error e => cases h
  | ok a => exact ⟨a, rfl, h⟩

/-- What the items of a list keep when they are written and read, the list keeps. -/
theorem map_of_mapM_eq_ok {α β γ ε : Type} {write : α → Json} {read : Json → Except ε β}
    {u : α → γ} {v : β → γ} (hread : ∀ a b, read (write a) = .ok b → v b = u a) {l : List α}
    {bs : List β} (h : (l.map write).mapM read = .ok bs) : bs.map v = l.map u := by
  induction l generalizing bs with
  | nil =>
    cases h
    rfl
  | cons a l ih =>
    rw [List.map_cons, List.mapM_cons] at h
    obtain ⟨b, hb, h⟩ := except_bind_eq_ok h
    obtain ⟨rest, hrest, h⟩ := except_bind_eq_ok h
    cases h
    rw [List.map_cons, List.map_cons, hread a b hb, ih hrest]

/-- What holds of all that is read from the items of a list holds of the items that are read. -/
theorem forall_of_mapM_eq_ok {α β ε : Type} {read : α → Except ε β} {P : β → Prop} {l : List α}
    {bs : List β} (h : l.mapM read = .ok bs) (hread : ∀ a ∈ l, ∀ b, read a = .ok b → P b) :
    ∀ b ∈ bs, P b := by
  induction l generalizing bs with
  | nil =>
    cases h
    exact fun b hb => absurd hb List.not_mem_nil
  | cons a l ih =>
    rw [List.mapM_cons] at h
    obtain ⟨b, hb, h⟩ := except_bind_eq_ok h
    obtain ⟨rest, hrest, h⟩ := except_bind_eq_ok h
    cases h
    obtain ⟨ha, hl⟩ := List.forall_mem_cons.1 hread
    exact List.forall_mem_cons.2 ⟨ha b hb, ih hrest hl⟩

theorem orFault_bind_eq_ok {α β : Type} {x : Option α} {f : α → Except BlockFault β} {b : β}
    (h : (orFault x >>= f) = .ok b) : ∃ a, x = some a ∧ f a = .ok b := by
  cases x with
  | none => cases h
  | some a => exact ⟨a, rfl, h⟩

/-! ## Objects -/

/-- The column of an object. -/
theorem Column.ofJson_object {ms : Members} (h : ms.Ordered) :
    ofJson (.object ms) = (do
      let blocks ← ContentBlock.listOfJson (ms.get? "blocks")
      let id ← orFault (Json.required Json.text? (ms.get? "id"))
      let width ← orFault (Json.required Json.text? (ms.get? "width"))
      let style ← orFault (Json.optional ColumnStyle.ofJson? (ms.get? "style"))
      return ⟨id, width, blocks, style⟩) := by
  rw [ofJson, Json.record?_object_of_ordered h]
  rfl

/-- The row of an object. -/
theorem RowLayout.ofJson_object {ms : Members} (h : ms.Ordered) :
    ofJson (.object ms) = (do
      let columns ← Column.listOfJson (ms.get? "columns")
      let preset ← orFault (Json.absent .twoEqual Preset.ofJson? (ms.get? "preset"))
      let gap ← orFault (Json.absent initialGap Json.double? (ms.get? "gap"))
      let stack ← orFault (Json.absent true Json.bool? (ms.get? "stackOnMobile"))
      let style ← orFault (Json.absent .initial RowStyle.ofJson? (ms.get? "style"))
      return ⟨preset, columns, gap, stack, style⟩) := by
  rw [ofJson, Json.record?_object_of_ordered h]
  rfl

/-! ## Written values -/

/-- Any block is read with the kind that its name stands for. -/
theorem RawBlock.ofJson?_toJson (r : RawBlock) :
    ofJson? r.toJson = some { r with kind := Kind.ofName r.kind.name } := by
  rw [ofJson?, toJson, record?_record]
  · simp only [List.map_cons, List.map_nil, Option.bind_eq_bind, Option.bind_some, Json.required,
      Json.absent]
    rfl
  · rfl
  · decide

theorem ContentBlock.ofJson_toJson (b : ContentBlock) :
    ofJson b.toJson = ofRaw ⟨b.id, Kind.ofName b.kind.name, b.props⟩ := by
  rw [ofJson, toJson, RawBlock.ofJson?_toJson]
  rfl

theorem orFault_some {α : Type} (a : α) : orFault (some a) = .ok a := rfl

theorem except_ok_bind {α β ε : Type} (a : α) (f : α → Except ε β) :
    (Except.ok a >>= f) = f a := rfl

/-- Any column is read with its blocks and its style as they are read. -/
theorem Column.ofJson_toJson (c : Column) :
    ofJson c.toJson = (do
      let blocks ← (c.blocks.map ContentBlock.toJson).mapM ContentBlock.ofJson
      let style ← orFault (Json.optional ColumnStyle.ofJson? (c.style.map ColumnStyle.toJson))
      return ⟨c.id, c.width, blocks, style⟩) := by
  have hobject : c.toJson.isArray = false := rfl
  rw [Column.ofJson, hobject, Column.toJson, record?_record]
  · simp only [List.map_cons, List.map_nil, orFault_some, except_ok_bind, Bool.false_and,
      Bool.false_eq_true, if_false]
    rfl
  · rfl
  · decide

/-! ## Members of rows -/

/-- The members of a row in the order of their names. -/
theorem RowLayout.toMembers_eq (l : RowLayout) : l.toMembers =
    [("columns", .array (l.columns.map Column.toJson)), ("gap", Json.real l.gap),
     ("preset", .string l.preset.name), ("stackOnMobile", .bool l.stackOnMobile),
     ("style", l.style.toJson)] := by
  simp only [toMembers, Dict.ofPairs, Dict.extend, List.foldl_cons, List.foldl_nil, Dict.insert,
    String.reduceEq, String.reduceLT, if_true, if_false]

theorem RowLayout.get?_toMembers_columns (l : RowLayout) :
    l.toMembers.get? "columns" = some (.array (l.columns.map Column.toJson)) := by
  rw [toMembers_eq]
  rfl

/-- The members of a row leave nothing of those of another row. -/
theorem RowLayout.extend_toMembers (l l' : RowLayout) :
    l.toMembers.extend l'.toMembers = l'.toMembers := by
  simp only [toMembers_eq, Dict.extend, List.foldl_cons, List.foldl_nil, Dict.insert,
    String.reduceEq, String.reduceLT, if_true, if_false]

end Letterpress
