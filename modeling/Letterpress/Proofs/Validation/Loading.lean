/-
  Which of the values that pass the check can be loaded.

  * `reportsOf_eq_nil`, `blockHead_eq_ok_iff`: what it means that nothing is reported.
  * `ColumnFrame` and `RowFrame`: the parts of a row that the check does not look at can be read.
  * `exists_block_iff`: a row that passes the check can be loaded exactly if it has a frame; the
    blocks in its columns never stand in the way.
  * `loads_iff_rowFrame`: so a list that passes the check can be loaded exactly if its rows have
    frames.  Not all of them have (`passes_without_loading`).
-/
import Letterpress.Proofs.Block.Reading
import Letterpress.Validation.Structure

namespace Letterpress

/-! ## Results -/

theorem except_bind_eq_ok_iff {α β ε : Type} {x : Except ε α} {f : α → Except ε β} {b : β} :
    (x >>= f) = .ok b ↔ ∃ a, x = .ok a ∧ f a = .ok b := by
  refine ⟨except_bind_eq_ok, ?_⟩
  rintro ⟨a, rfl, h⟩
  exact h

/-- All items of a list can be read exactly if each of them can. -/
theorem exists_mapM_eq_ok_iff {α β ε : Type} {read : α → Except ε β} {l : List α} :
    (∃ bs, l.mapM read = .ok bs) ↔ ∀ a ∈ l, ∃ b, read a = .ok b := by
  induction l with
  | nil => simp [pure, Except.pure]
  | cons a l ih =>
    rw [List.forall_mem_cons, ← ih, List.mapM_cons]
    constructor
    · rintro ⟨bs, h⟩
      obtain ⟨b, hb, h⟩ := except_bind_eq_ok h
      obtain ⟨rest, hrest, -⟩ := except_bind_eq_ok h
      exact ⟨⟨b, hb⟩, rest, hrest⟩
    · rintro ⟨⟨b, hb⟩, rest, hrest⟩
      exact ⟨b :: rest, except_bind_eq_ok_iff.2 ⟨b, hb, except_bind_eq_ok_iff.2 ⟨rest, hrest, rfl⟩⟩⟩

/-! ## Fields -/

namespace Json

theorem members?_eq_some {v : Json} {ms : Members} (h : v.members? = some ms) : v = .object ms := by
  cases v <;> cases h
  rfl

theorem items?_eq_some {v : Json} {items : List Json} (h : v.items? = some items) :
    v = .array items := by
  cases v <;> cases h
  rfl

theorem text?_eq_some {v : Json} {s : String} (h : v.text? = some s) : v = .string s := by
  cases v <;> cases h
  rfl

/-- The items of a field of an ordered value are ordered. -/
theorem ordered_of_mem_items {field : Option Json} (h : ∀ v ∈ field, v.Ordered) {item : Json}
    (hitem : item ∈ (field.bind items?).getD []) : item.Ordered := by
  rcases field with _ | v
  · cases hitem
  · rw [Option.bind_some] at hitem
    cases hitems : v.items? with
    | none =>
      rw [hitems] at hitem
      cases hitem
    | some items =>
      rw [hitems] at hitem
      have hv := h v rfl
      rw [items?_eq_some hitems] at hv
      exact ordered_of_mem hv hitem

variable {α : Type} {read : Json → Option α}

theorem exists_absent_iff (whenMissing : α) {field : Option Json} :
    (∃ a, absent whenMissing read field = some a) ↔ ∀ v ∈ field, ∃ a, read v = some a := by
  cases field with
  | none => simp [absent]
  | some v => simp [absent]

theorem optional_of_ne_null {v : Json} (h : v ≠ .null) :
    optional read (some v) = (read v).map some := by
  cases v with
  | null => exact absurd rfl h
  | _ => rfl

theorem exists_optional_iff {field : Option Json} :
    (∃ a, optional read field = some a) ↔ ∀ v ∈ field, v = .null ∨ ∃ a, read v = some a := by
  rcases field with _ | v
  · simp [optional]
  · by_cases hv : v = .null
    · subst hv
      simp [optional]
    · rw [optional_of_ne_null hv]
      cases hread : read v <;> simp [hv, hread]

theorem exists_required_text_iff {field : Option Json} :
    (∃ s, required text? field = some s) ↔ ∃ s, field = some (.string s) := by
  rcases field with _ | v
  · simp [required]
  · cases v <;> simp [required, text?]

end Json

namespace Validation

/-! ## Nothing to report -/

theorem reportsOf_eq_nil {check : String → Json → List Report} {path : String} {items : List Json}
    (h : reportsOf check path items = []) : ∀ v ∈ items, ∃ path', check path' v = [] := by
  intro v hv
  obtain ⟨i, hi, rfl⟩ := List.getElem_of_mem hv
  exact ⟨_, List.flatten_eq_nil_iff.1 h _ (List.mem_mapIdx.2 ⟨i, hi, rfl⟩)⟩

theorem ordered_of_mem_itemsOf? {v item : Json} {key : String} (hv : v.Ordered)
    (hitem : item ∈ (itemsOf? v key).getD []) : item.Ordered := by
  rw [itemsOf?] at hitem
  cases hms : v.members? with
  | none =>
    rw [hms] at hitem
    cases hitem
  | some ms =>
    rw [hms] at hitem
    rw [Json.members?_eq_some hms] at hv
    exact Json.ordered_of_mem_items (fun u hu => Json.ordered_of_get? hv hu) hitem

variable {has : Kind → Bool}

/-- What the head of a block without a fault holds. -/
theorem blockHead_eq_ok_iff {nested : Bool} {v : Json} {kind : Kind} {props : Members} :
    blockHead has nested v = .ok (kind, props) ↔
      ∃ ms : Members, v = .object ms ∧ (∃ id, ms.get? "id" = some (.string id) ∧ isUuid id = true) ∧
        (∃ name, ms.get? "type" = some (.string name) ∧ kind = Kind.ofName name) ∧
        ms.get? "props" = some (.object props) ∧ has kind = true ∧
        (nested = true → kind.isRow = false) := by
  constructor
  · intro h
    -- each step either ends with a fault or goes on
    unfold blockHead at h
    rcases hms : v.members? with _ | ms <;> rw [hms] at h
    · cases h
    dsimp only at h
    rcases hid : (ms.get? "id").bind Json.text? with _ | id <;> rw [hid] at h
    · cases h
    dsimp only at h
    cases huuid : isUuid id <;> rw [huuid] at h
    · cases h
    rcases hkind : (ms.get? "type").bind Kind.ofJson? with _ | kind' <;> rw [hkind] at h
    · cases h
    dsimp only [Bool.not_true, Bool.false_eq_true, if_false] at h
    cases hhas : has kind' <;> rw [hhas] at h
    · cases h
    cases hrow : nested && kind'.isRow <;> rw [hrow] at h
    case true => cases h
    rcases hprops : (ms.get? "props").bind Json.members? with _ | props' <;> rw [hprops] at h
    · cases h
    cases h
    obtain ⟨idValue, hidValue, htext⟩ := Option.bind_eq_some_iff.1 hid
    obtain ⟨typeValue, htypeValue, hname⟩ := Option.bind_eq_some_iff.1 hkind
    obtain ⟨propsValue, hpropsValue, hmembers⟩ := Option.bind_eq_some_iff.1 hprops
    obtain ⟨name, hname, hofName⟩ := Option.map_eq_some_iff.1 hname
    refine ⟨ms, Json.members?_eq_some hms, ⟨id, ?_, huuid⟩, ⟨name, ?_, hofName.symm⟩, ?_, hhas, ?_⟩
    · rw [hidValue, Json.text?_eq_some htext]
    · rw [htypeValue, Json.text?_eq_some hname]
    · rw [hpropsValue, Json.members?_eq_some hmembers]
    · rintro rfl
      rwa [Bool.true_and] at hrow
  · rintro ⟨ms, rfl, ⟨id, hid, huuid⟩, ⟨name, hname, rfl⟩, hprops, hhas, hnested⟩
    have hrow : (nested && (Kind.ofName name).isRow) = false := by
      cases nested with
      | false => rfl
      | true => exact hnested rfl
    rw [blockHead, Json.members?]
    dsimp only
    rw [hid, hname, hprops]
    simp [Json.text?, Json.members?, Kind.ofJson?, huuid, hhas, hrow, pure, Except.pure]

/-- A block whose head is sound has the common form. -/
theorem rawBlock_of_blockHead {nested : Bool} {v : Json} {kind : Kind} {props : Members}
    (hv : v.Ordered) (h : blockHead has nested v = .ok (kind, props)) :
    ∃ id, RawBlock.ofJson? v = some ⟨id, kind, props⟩ := by
  obtain ⟨ms, rfl, ⟨id, hid, -⟩, ⟨name, hname, rfl⟩, hprops, -, -⟩ := blockHead_eq_ok_iff.1 h
  refine ⟨id, ?_⟩
  rw [RawBlock.ofJson?, Json.record?_object_of_ordered (Json.ordered_members hv),
    Option.bind_eq_bind, Option.bind_some, List.map_cons, List.map_cons, List.map_cons, List.map_nil, hid, hname, hprops]
  rfl

/-- What it means that nothing is reported of a block. -/
theorem blockReports_eq_nil {levels : Nat} {nested : Bool} {path : String} {v : Json}
    (h : blockReports has levels nested path v = []) :
    ∃ kind props, blockHead has nested v = .ok (kind, props) ∧
      (kind.isRow = true → ∀ c ∈ ((props.get? "columns").bind Json.items?).getD [],
        ∀ b ∈ (itemsOf? c "blocks").getD [], ∃ levels' path',
          blockReports has levels' true path' b = []) := by
  cases levels with
  | zero => cases h
  | succ levels =>
    rw [blockReports] at h
    split at h
    · cases h
    · rename_i kind props hhead
      refine ⟨kind, props, hhead, fun hrow c hc b hb => ?_⟩
      rw [List.append_eq_nil_iff, if_pos hrow] at h
      obtain ⟨column, hcolumn⟩ := reportsOf_eq_nil h.2 c hc
      obtain ⟨path', hpath'⟩ := reportsOf_eq_nil hcolumn b hb
      exact ⟨levels, path', hpath'⟩

/-- A block in a column of which nothing is reported can be loaded. -/
theorem exists_contentBlock {levels : Nat} {path : String} {v : Json} (hv : v.Ordered)
    (h : blockReports has levels true path v = []) : ∃ b, ContentBlock.ofJson v = .ok b := by
  obtain ⟨kind, props, hhead, -⟩ := blockReports_eq_nil h
  obtain ⟨id, hraw⟩ := rawBlock_of_blockHead hv hhead
  obtain ⟨-, -, -, -, -, -, hrow⟩ := blockHead_eq_ok_iff.1 hhead
  refine ⟨⟨id, kind, props⟩, ?_⟩
  rw [ContentBlock.ofJson, hraw]
  exact if_neg (by rw [hrow rfl]; exact Bool.false_ne_true)

end Validation

/-! ## Frames -/

/-- The parts of a column beside the blocks in it can be read. -/
structure ColumnMembers (ms : Members) : Prop where
  id : ∃ s, ms.get? "id" = some (.string s)
  width : ∃ s, ms.get? "width" = some (.string s)
  blocks : ∀ v ∈ ms.get? "blocks", ∃ items, v = .array items
  style : ∀ v ∈ ms.get? "style", v = .null ∨ ∃ s, ColumnStyle.ofJson? v = some s

/-- A column that can be read up to the blocks in it.  In the form of an array, the blocks are not
    checked either, and all of it must be readable. -/
def ColumnFrame : Json → Prop
  | .object ms => ColumnMembers ms
  | v => ∃ c, Column.ofJson v = .ok c

/-- The props of a row that can be read up to the blocks in its columns. -/
structure RowFrame (props : Members) : Prop where
  columns : ∀ v ∈ props.get? "columns", ∃ items, v = .array items ∧ ∀ c ∈ items, ColumnFrame c
  preset : ∀ v ∈ props.get? "preset", ∃ p, Preset.ofJson? v = some p
  gap : ∀ v ∈ props.get? "gap", ∃ x, Json.double? v = some x
  stackOnMobile : ∀ v ∈ props.get? "stackOnMobile", ∃ b, Json.bool? v = some b
  style : ∀ v ∈ props.get? "style", ∃ s, RowStyle.ofJson? v = some s

theorem ContentBlock.exists_listOfJson_iff {field : Option Json} :
    (∃ bs, listOfJson field = .ok bs) ↔
      ∀ v ∈ field, ∃ items, v = .array items ∧ ∀ b ∈ items, ∃ c, ofJson b = .ok c := by
  rcases field with _ | v
  · simp [listOfJson]
  · cases v <;> simp [listOfJson, exists_mapM_eq_ok_iff]

theorem Column.exists_listOfJson_iff {field : Option Json} :
    (∃ cs, listOfJson field = .ok cs) ↔
      ∀ v ∈ field, ∃ items, v = .array items ∧ ∀ c ∈ items, ∃ c', ofJson c = .ok c' := by
  rcases field with _ | v
  · simp [listOfJson]
  · cases v <;> simp [listOfJson, exists_mapM_eq_ok_iff]

/-- A column whose blocks can be loaded can be loaded exactly if it has a frame. -/
theorem Column.exists_ofJson_iff {v : Json} (hv : v.Ordered)
    (hblocks : ∀ b ∈ (Validation.itemsOf? v "blocks").getD [], ∃ c, ContentBlock.ofJson b = .ok c) :
    (∃ c, ofJson v = .ok c) ↔ ColumnFrame v := by
  cases v with
  | object ms =>
    rw [ofJson_object (Json.ordered_members hv)]
    constructor
    · rintro ⟨c, h⟩
      obtain ⟨blocks, hlist, h⟩ := except_bind_eq_ok h
      obtain ⟨id, hid, h⟩ := orFault_bind_eq_ok h
      obtain ⟨width, hwidth, h⟩ := orFault_bind_eq_ok h
      obtain ⟨style, hstyle, -⟩ := orFault_bind_eq_ok h
      constructor
      case id => exact Json.exists_required_text_iff.1 ⟨id, hid⟩
      case width => exact Json.exists_required_text_iff.1 ⟨width, hwidth⟩
      case blocks =>
        intro v hv
        obtain ⟨items, hitems, -⟩ := ContentBlock.exists_listOfJson_iff.1 ⟨blocks, hlist⟩ v hv
        exact ⟨items, hitems⟩
      case style => exact Json.exists_optional_iff.1 ⟨style, hstyle⟩
    · intro h
      have hlist : ∃ bs, ContentBlock.listOfJson (Dict.get? ms "blocks") = .ok bs := by
        rw [ContentBlock.exists_listOfJson_iff]
        intro v hv
        obtain ⟨items, rfl⟩ := h.blocks v hv
        refine ⟨items, rfl, fun b hb => hblocks b ?_⟩
        have hitems : Validation.itemsOf? (.object ms) "blocks" = some items := by
          rw [Validation.itemsOf?, Json.members?, Option.bind_some, Option.mem_def.1 hv]
          rfl
        rwa [hitems]
      obtain ⟨blocks, hlist⟩ := hlist
      obtain ⟨id, hid⟩ := Json.exists_required_text_iff.2 h.id
      obtain ⟨width, hwidth⟩ := Json.exists_required_text_iff.2 h.width
      obtain ⟨style, hstyle⟩ := Json.exists_optional_iff.2 h.style
      rw [hlist, hid, hwidth, hstyle]
      exact ⟨_, rfl⟩
  | _ => rfl

/-- A row whose columns hold blocks that can be loaded can be loaded exactly if it has a frame. -/
theorem RowLayout.exists_ofJson_iff {props : Members} (hprops : (Json.object props).Ordered)
    (hblocks : ∀ c ∈ ((props.get? "columns").bind Json.items?).getD [],
      ∀ b ∈ (Validation.itemsOf? c "blocks").getD [], ∃ b', ContentBlock.ofJson b = .ok b') :
    (∃ l, ofJson (.object props) = .ok l) ↔ RowFrame props := by
  have hcolumn : ∀ items, props.get? "columns" = some (.array items) → ∀ c ∈ items,
      ((∃ c', Column.ofJson c = .ok c') ↔ ColumnFrame c) := by
    intro items hitems c hc
    rw [hitems] at hblocks
    exact Column.exists_ofJson_iff (Json.ordered_of_mem (Json.ordered_of_get? hprops hitems) hc)
      (hblocks c hc)
  rw [ofJson_object (Json.ordered_members hprops)]
  constructor
  · rintro ⟨l, h⟩
    obtain ⟨columns, hlist, h⟩ := except_bind_eq_ok h
    obtain ⟨preset, hpreset, h⟩ := orFault_bind_eq_ok h
    obtain ⟨gap, hgap, h⟩ := orFault_bind_eq_ok h
    obtain ⟨stack, hstack, h⟩ := orFault_bind_eq_ok h
    obtain ⟨style, hstyle, -⟩ := orFault_bind_eq_ok h
    constructor
    case columns =>
      intro v hv
      obtain ⟨items, rfl, hread⟩ := Column.exists_listOfJson_iff.1 ⟨columns, hlist⟩ v hv
      exact ⟨items, rfl, fun c hc => (hcolumn items hv c hc).1 (hread c hc)⟩
    case preset => exact (Json.exists_absent_iff _).1 ⟨preset, hpreset⟩
    case gap => exact (Json.exists_absent_iff _).1 ⟨gap, hgap⟩
    case stackOnMobile => exact (Json.exists_absent_iff _).1 ⟨stack, hstack⟩
    case style => exact (Json.exists_absent_iff _).1 ⟨style, hstyle⟩
  · intro h
    obtain ⟨columns, hlist⟩ : ∃ cs, Column.listOfJson (props.get? "columns") = .ok cs := by
      rw [Column.exists_listOfJson_iff]
      intro v hv
      obtain ⟨items, rfl, hframe⟩ := h.columns v hv
      exact ⟨items, rfl, fun c hc => (hcolumn items hv c hc).2 (hframe c hc)⟩
    obtain ⟨preset, hpreset⟩ := (Json.exists_absent_iff .twoEqual).2 h.preset
    obtain ⟨gap, hgap⟩ := (Json.exists_absent_iff initialGap).2 h.gap
    obtain ⟨stack, hstack⟩ := (Json.exists_absent_iff true).2 h.stackOnMobile
    obtain ⟨style, hstyle⟩ := (Json.exists_absent_iff .initial).2 h.style
    rw [hlist, hpreset, hgap, hstack, hstyle]
    exact ⟨_, rfl⟩

/-! ## Lists of blocks -/

/-- The props of a row. -/
def Block.rowProps? (v : Json) : Option Members :=
  (RawBlock.ofJson? v).bind fun r => if r.kind.isRow then some r.props else none

theorem Block.exists_ofJson?_iff {v : Json} {raw : RawBlock} (h : RawBlock.ofJson? v = some raw) :
    (∃ b, ofJson? v = some b) ↔
      (raw.kind.isRow = true → ∃ l, RowLayout.ofJson (.object raw.props) = .ok l) := by
  rw [ofJson?, h, Option.bind_some, ofRaw]
  cases hrow : raw.kind.isRow with
  | true =>
    cases RowLayout.ofJson (.object raw.props) <;> simp [Except.map, Except.toOption]
  | false => simp [ContentBlock.ofRaw, hrow, Except.map, Except.toOption]

theorem mapM_eq_some_iff {α β : Type} {read : α → Option β} {l : List α} :
    (∃ bs, l.mapM read = some bs) ↔ ∀ a ∈ l, ∃ b, read a = some b := by
  induction l with
  | nil => simp
  | cons a l ih =>
    rw [List.forall_mem_cons, ← ih, List.mapM_cons]
    simp only [Option.bind_eq_bind, Option.bind_eq_some_iff]
    constructor
    · rintro ⟨bs, b, hb, rest, hrest, -⟩
      exact ⟨⟨b, hb⟩, rest, hrest⟩
    · rintro ⟨⟨b, hb⟩, rest, hrest⟩
      exact ⟨b :: rest, b, hb, rest, hrest, rfl⟩

namespace Validation

variable {has : Kind → Bool}

/-- A block of which nothing is reported can be loaded exactly if it has a frame or is no row. -/
theorem exists_block_iff {levels : Nat} {nested : Bool} {path : String} {v : Json}
    (hv : v.Ordered) (h : blockReports has levels nested path v = []) :
    (∃ b, Block.ofJson? v = some b) ↔ ∀ props ∈ Block.rowProps? v, RowFrame props := by
  obtain ⟨kind, props, hhead, hcolumns⟩ := blockReports_eq_nil h
  obtain ⟨id, hraw⟩ := rawBlock_of_blockHead hv hhead
  have hprops : (Json.object props).Ordered := by
    obtain ⟨ms, rfl, -, -, hget, -, -⟩ := blockHead_eq_ok_iff.1 hhead
    exact Json.ordered_of_get? hv hget
  rw [Block.exists_ofJson?_iff hraw, Block.rowProps?, hraw, Option.bind_some]
  cases hrow : kind.isRow with
  | false => simp
  | true =>
    rw [RowLayout.exists_ofJson_iff hprops]
    · simp
    · intro c hc b hb
      obtain ⟨levels', path', hreports⟩ := hcolumns hrow c hc b hb
      have hc := Json.ordered_of_mem_items (fun u hu => Json.ordered_of_get? hprops hu) hc
      exact exists_contentBlock (ordered_of_mem_itemsOf? hc hb) hreports

/-- A list of blocks that passes the check can be loaded exactly if its rows have frames. -/
theorem loads_iff_rowFrame {v : Json} (hv : v.Ordered) (h : structureFaults has v = []) :
    (∃ blocks, Json.listOf? Block.ofJson? v = some blocks) ↔
      ∀ item ∈ v.items?.getD [], ∀ props ∈ Block.rowProps? item, RowFrame props := by
  rw [structureFaults] at h
  cases hitems : v.items? with
  | none =>
    rw [hitems] at h
    cases h
  | some items =>
    rw [hitems] at h
    obtain rfl := Json.items?_eq_some hitems
    rw [Json.listOf?, mapM_eq_some_iff, Option.getD_some]
    refine forall₂_congr fun item hitem => ?_
    obtain ⟨path, hreports⟩ := reportsOf_eq_nil h item hitem
    exact exists_block_iff (Json.ordered_of_mem hv hitem) hreports

/-- A row with a text in its only column, and a text beside it. -/
theorem loads_iff_rowFrame_sample :
    let text : Json := .object [("id", .string "00000001-1111-4222-8333-000000000001"),
      ("props", .object []), ("type", .string "text")]
    let column : Json := .object [("blocks", .array [text]), ("id", .string "c"),
      ("width", .string "100%")]
    let row : Json := .object [("id", .string "00000002-1111-4222-8333-000000000002"),
      ("props", .object [("columns", .array [column])]), ("type", .string "row")]
    let v : Json := .array [text, row]
    v.Ordered ∧ structureFaults Registry.builtin.has v = [] ∧
      ((∃ blocks, Json.listOf? Block.ofJson? v = some blocks) ↔
        ∀ item ∈ v.items?.getD [], ∀ props ∈ Block.rowProps? item, RowFrame props) ∧
      (Json.listOf? Block.ofJson? v).isSome = true := by
  intro text column row v
  have hv : v.Ordered := by
    simp only [v, row, column, text, Json.Ordered, Json.ItemsOrdered, Json.MembersOrdered,
      Dict.Ordered, and_true, true_and]
    decide
  have hfaults : structureFaults Registry.builtin.has v = [] := by decide +kernel
  exact ⟨hv, hfaults, loads_iff_rowFrame hv hfaults, by decide +kernel⟩

/-- The columns of a row are only looked at if they are a list: without one, the row passes and
    cannot be loaded. -/
theorem passes_without_loading :
    ¬ ∀ v : Json, v.Ordered → structureFaults Registry.builtin.has v = [] →
      ∃ blocks, Json.listOf? Block.ofJson? v = some blocks := by
  intro h
  let v : Json := .array [.object [("id", .string "00000007-1111-4222-8333-000000000007"),
    ("props", .object [("columns", .string "none")]), ("type", .string "row")]]
  have hv : v.Ordered := by
    simp only [v, Json.Ordered, Json.ItemsOrdered, Json.MembersOrdered, Dict.Ordered, and_true]
    decide
  obtain ⟨blocks, hblocks⟩ := h v hv (by decide +kernel)
  have hnone : (Json.listOf? Block.ofJson? v).isNone = true := by decide +kernel
  rw [hblocks] at hnone
  cases hnone

end Validation

end Letterpress
