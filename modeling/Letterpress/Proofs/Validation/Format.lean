/-
  The check accepts exactly the lists of blocks in the specified form.

  * `BlockFormat` is the form of a block, with that of the blocks in its columns; `ListFormat` is
    the form of a list.  Neither mentions paths, levels or faults.
  * `reportsOf_eq_nil_iff`, `blockReports_eq_nil_iff`: nothing is reported exactly if nothing is
    reported of the parts.
  * `blockFormat_iff_head`: the form of a block, by its head and the blocks in its columns.
  * `blockReports_nested`, `blockReports_top`: what is not reported of a block in a column and of
    one at the top.
  * `structure_accepts_iff_format`: nothing is reported exactly of a list in the specified form, and
    the check as a result fails with the reports in all other cases.
-/
import Letterpress.Proofs.Validation.Loading

namespace Letterpress.Validation

/-! ## The form -/

/-- The prop is there, and neither `null` nor the empty string. -/
def Filled (props : Members) (prop : String) : Prop :=
  ∃ v, props.get? prop = some v ∧ v ≠ .null ∧ v ≠ .string ""

/-- The value is an object of the type. -/
def HasType (v : Json) (type : String) : Prop :=
  ∃ ms : Members, v = .object ms ∧ ms.get? "type" = some (.string type)

/-- The value is an item of the list `blocks` of one of the columns. -/
def InColumns (props : Members) (v : Json) : Prop :=
  ∃ columns, props.get? "columns" = some (.array columns) ∧
    ∃ column : Members, .object column ∈ columns ∧
      ∃ blocks, column.get? "blocks" = some (.array blocks) ∧ v ∈ blocks

/-- What an object of a type with props must have to be a block, apart from what is in it. -/
structure BlockFrame (has : Kind → Bool) (ms : Members) (type : String) (props : Members) :
    Prop where
  id : ∃ id, ms.get? "id" = some (.string id) ∧ isUuid id = true
  hasType : ms.get? "type" = some (.string type)
  registered : has (Kind.ofName type) = true
  hasProps : ms.get? "props" = some (.object props)
  button : type = "button" → Filled props "text" ∧ Filled props "href"
  image : type = "image" → Filled props "src"

/-- The form of a block: a frame, and in the columns of a row only blocks that are no rows. -/
inductive BlockFormat (has : Kind → Bool) : Json → Prop
  | block {ms : Members} {type : String} {props : Members} (frame : BlockFrame has ms type props)
      (nested : type = "row" → ∀ v, InColumns props v → BlockFormat has v)
      (noRow : type = "row" → ∀ v, InColumns props v → ¬ HasType v "row") :
      BlockFormat has (.object ms)

/-- The form of a list of blocks. -/
def ListFormat (has : Kind → Bool) (v : Json) : Prop :=
  ∃ items, v = .array items ∧ ∀ item ∈ items, BlockFormat has item

/-! ## Nothing to report -/

/-- Nothing is reported of a list exactly if nothing is reported of its items, where the path of an
    item does not matter. -/
theorem reportsOf_eq_nil_iff {check : String → Json → List Report} {P : Json → Prop}
    (h : ∀ path v, check path v = [] ↔ P v) {path : String} {items : List Json} :
    reportsOf check path items = [] ↔ ∀ v ∈ items, P v := by
  constructor
  · intro hnil v hv
    obtain ⟨path', hpath'⟩ := reportsOf_eq_nil hnil v hv
    exact (h path' v).1 hpath'
  · intro hitems
    rw [reportsOf, List.flatten_eq_nil_iff]
    intro reports hreports
    obtain ⟨i, hi, rfl⟩ := List.mem_mapIdx.1 hreports
    exact (h _ _).2 (hitems _ (List.getElem_mem hi))

theorem mem_itemsOf?_iff {v item : Json} {key : String} :
    item ∈ (itemsOf? v key).getD [] ↔
      ∃ ms : Members, v = .object ms ∧ ∃ items, ms.get? key = some (.array items) ∧ item ∈ items := by
  cases v with
  | object ms =>
    simp only [itemsOf?, Json.members?, Option.bind_some, Json.object.injEq, exists_eq_left']
    rcases Dict.get? ms key with _ | u
    · simp
    · cases u <;> simp [Json.items?]
  | _ => simp [itemsOf?, Json.members?]

/-- The blocks that the check looks at in the columns of a row. -/
theorem inColumns_iff {props : Members} {v : Json} :
    InColumns props v ↔ ∃ column ∈ ((props.get? "columns").bind Json.items?).getD [],
      v ∈ (itemsOf? column "blocks").getD [] := by
  have hcolumns : ∀ column, column ∈ ((props.get? "columns").bind Json.items?).getD [] ↔
      ∃ columns, props.get? "columns" = some (.array columns) ∧ column ∈ columns := by
    intro column
    rcases props.get? "columns" with _ | u
    · simp
    · cases u <;> simp [Json.items?]
  simp only [InColumns, mem_itemsOf?_iff, hcolumns]
  constructor
  · rintro ⟨columns, hget, column, hcolumn, blocks, hblocks, hv⟩
    exact ⟨_, ⟨columns, hget, hcolumn⟩, column, rfl, blocks, hblocks, hv⟩
  · rintro ⟨_, ⟨columns, hget, hcolumn⟩, column, rfl, blocks, hblocks, hv⟩
    exact ⟨columns, hget, column, hcolumn, blocks, hblocks, hv⟩

theorem isBlank_eq_false_iff {props : Members} {prop : String} :
    Json.isBlank (props.get? prop) = false ↔ Filled props prop := by
  unfold Filled
  rcases props.get? prop with _ | v
  · simp [Json.isBlank]
  · cases v <;> simp [Json.isBlank]

variable {has : Kind → Bool}

/-- The head of a block is sound and no required prop is missing. -/
def SoundHead (has : Kind → Bool) (nested : Bool) (v : Json) (kind : Kind) (props : Members) :
    Prop :=
  blockHead has nested v = .ok (kind, props) ∧ ∀ prop ∈ requiredProps kind, Filled props prop

theorem blockReports_eq_nil_iff {levels : Nat} {Q : Json → Prop}
    (h : ∀ path v, blockReports has levels true path v = [] ↔ Q v) {nested : Bool} {path : String}
    {v : Json} :
    blockReports has (levels + 1) nested path v = [] ↔
      ∃ kind props, SoundHead has nested v kind props ∧
        (kind.isRow = true → ∀ b, InColumns props b → Q b) := by
  rw [blockReports]
  split
  · rename_i fault hhead
    simp [SoundHead, hhead]
  · rename_i kind props hhead
    have hmissing : ((requiredProps kind).filter fun prop => Json.isBlank (props.get? prop)) = [] ↔
        ∀ prop ∈ requiredProps kind, Filled props prop := by
      simp only [List.filter_eq_nil_iff, Bool.not_eq_true, isBlank_eq_false_iff]
    have hcolumn : ∀ column v, reportsOf (blockReports has levels true) (column ++ ".blocks")
        ((itemsOf? v "blocks").getD []) = [] ↔ ∀ b ∈ (itemsOf? v "blocks").getD [], Q b :=
      fun column v => reportsOf_eq_nil_iff h
    rw [List.append_eq_nil_iff, List.map_eq_nil_iff, hmissing, reportsOf_eq_nil_iff hcolumn]
    simp only [SoundHead, hhead, Except.ok.injEq, Prod.mk.injEq, inColumns_iff]
    constructor
    · rintro ⟨hprops, hblocks⟩
      refine ⟨kind, props, ⟨⟨rfl, rfl⟩, hprops⟩, fun hrow b => ?_⟩
      rw [if_pos hrow] at hblocks
      rintro ⟨column, hcolumn, hb⟩
      exact hblocks column hcolumn b hb
    · rintro ⟨_, _, ⟨⟨rfl, rfl⟩, hprops⟩, hblocks⟩
      refine ⟨hprops, fun column hcolumn b hb => ?_⟩
      split at hcolumn
      · rename_i hrow
        exact hblocks hrow b ⟨column, hcolumn, hb⟩
      · cases hcolumn

/-! ## The form by the head -/

/-- The required props of a kind, by its name. -/
theorem forall_requiredProps_iff {type : String} {props : Members} :
    (∀ prop ∈ requiredProps (Kind.ofName type), Filled props prop) ↔
      (type = "button" → Filled props "text" ∧ Filled props "href") ∧
        (type = "image" → Filled props "src") := by
  have hbutton : Kind.ofName type = .button ↔ type = "button" := Kind.ofName_eq_iff (by decide)
  have himage : Kind.ofName type = .image ↔ type = "image" := Kind.ofName_eq_iff (by decide)
  rw [← hbutton, ← himage]
  cases Kind.ofName type <;> simp [requiredProps]

/-- An object of a type has a sound head exactly if it has a frame, and is no row where that is
    not allowed. -/
theorem soundHead_iff {nested : Bool} {v : Json} {kind : Kind} {props : Members} :
    SoundHead has nested v kind props ↔ ∃ ms type, v = .object ms ∧ kind = Kind.ofName type ∧
      BlockFrame has ms type props ∧ (nested = true → kind.isRow = false) := by
  rw [SoundHead, blockHead_eq_ok_iff]
  constructor
  · rintro ⟨⟨ms, rfl, hid, ⟨type, htype, rfl⟩, hprops, hhas, hnested⟩, hfilled⟩
    obtain ⟨hbutton, himage⟩ := forall_requiredProps_iff.1 hfilled
    exact ⟨ms, type, rfl, rfl, ⟨hid, htype, hhas, hprops, hbutton, himage⟩, hnested⟩
  · rintro ⟨ms, type, rfl, rfl, h, hnested⟩
    exact ⟨⟨ms, rfl, h.id, ⟨type, h.hasType, rfl⟩, h.hasProps, h.registered, hnested⟩,
      forall_requiredProps_iff.2 ⟨h.button, h.image⟩⟩

theorem isRow_ofName_iff {type : String} : (Kind.ofName type).isRow = true ↔ type = "row" := by
  rw [Kind.isRow, beq_iff_eq]
  exact Kind.ofName_eq_iff (by decide)

/-- A sound head in a column is a sound head of a block that is no row. -/
theorem soundHead_nested_iff {v : Json} {kind : Kind} {props : Members} :
    SoundHead has true v kind props ↔ SoundHead has false v kind props ∧ ¬ HasType v "row" := by
  rw [soundHead_iff, soundHead_iff]
  have hrow : ∀ {ms : Members} {type : String}, ms.get? "type" = some (.string type) →
      ((Kind.ofName type).isRow = false ↔ ¬ HasType (.object ms) "row") := by
    intro ms type htype
    rw [← Bool.not_eq_true, isRow_ofName_iff, HasType]
    simp [htype]
  constructor
  · rintro ⟨ms, type, rfl, rfl, h, hnested⟩
    exact ⟨⟨ms, type, rfl, rfl, h, fun hfalse => by cases hfalse⟩, (hrow h.hasType).1 (hnested rfl)⟩
  · rintro ⟨⟨ms, type, rfl, rfl, h, -⟩, htype⟩
    exact ⟨ms, type, rfl, rfl, h, fun _ => (hrow h.hasType).2 htype⟩

/-- The form of a block: a sound head, and in the columns of a row only blocks that are no rows. -/
theorem blockFormat_iff_head {v : Json} :
    BlockFormat has v ↔ ∃ kind props, SoundHead has false v kind props ∧
      (kind.isRow = true → ∀ b, InColumns props b → BlockFormat has b ∧ ¬ HasType b "row") := by
  simp only [soundHead_iff]
  constructor
  · rintro ⟨frame, nested, noRow⟩
    refine ⟨_, _, ⟨_, _, rfl, rfl, frame, fun hfalse => by cases hfalse⟩, fun hrow b hb => ?_⟩
    have htype := isRow_ofName_iff.1 hrow
    exact ⟨nested htype b hb, noRow htype b hb⟩
  · rintro ⟨_, props, ⟨ms, type, rfl, rfl, frame, -⟩, hcolumns⟩
    exact .block frame (fun htype b hb => (hcolumns (isRow_ofName_iff.2 htype) b hb).1)
      fun htype b hb => (hcolumns (isRow_ofName_iff.2 htype) b hb).2

/-! ## The check -/

/-- Nothing is reported of a block in a column exactly if it has the form and is no row.  As it is
    no row, nothing is in it, and it does not matter how many levels are left. -/
theorem blockReports_nested {levels : Nat} {path : String} {v : Json} :
    blockReports has (levels + 1) true path v = [] ↔ BlockFormat has v ∧ ¬ HasType v "row" := by
  have hlevels : ∃ Q : Json → Prop, ∀ path v, blockReports has levels true path v = [] ↔ Q v := by
    induction levels with
    | zero => exact ⟨fun _ => False, fun path v => by simp [blockReports]⟩
    | succ levels ih =>
      obtain ⟨Q, hQ⟩ := ih
      exact ⟨_, fun path v => blockReports_eq_nil_iff hQ⟩
  obtain ⟨Q, hQ⟩ := hlevels
  have hflat : ∀ {kind : Kind} {props : Members}, SoundHead has true v kind props →
      ¬ kind.isRow = true := by
    intro kind props h
    obtain ⟨ms, type, rfl, rfl, -, hnested⟩ := soundHead_iff.1 h
    simp [hnested rfl]
  rw [blockReports_eq_nil_iff hQ, blockFormat_iff_head]
  constructor
  · rintro ⟨kind, props, h, -⟩
    obtain ⟨hhead, htype⟩ := soundHead_nested_iff.1 h
    exact ⟨⟨kind, props, hhead, fun hrow => absurd hrow (hflat h)⟩, htype⟩
  · rintro ⟨⟨kind, props, hhead, -⟩, htype⟩
    have h := soundHead_nested_iff.2 ⟨hhead, htype⟩
    exact ⟨kind, props, h, fun hrow => absurd hrow (hflat h)⟩

/-- Nothing is reported of a block at the top exactly if it has the form. -/
theorem blockReports_top {levels : Nat} {path : String} {v : Json} :
    blockReports has (levels + 2) false path v = [] ↔ BlockFormat has v := by
  rw [blockReports_eq_nil_iff fun path v => blockReports_nested, ← blockFormat_iff_head]

theorem structureFaults_eq_nil_iff {v : Json} : structureFaults has v = [] ↔ ListFormat has v := by
  unfold structureFaults ListFormat
  cases v with
  | array items =>
    have htop : ∀ path v, blockReports has (deepestLevel + 1) false path v = [] ↔
        BlockFormat has v := fun path v => blockReports_top
    simp only [Json.items?, Json.array.injEq, exists_eq_left']
    exact reportsOf_eq_nil_iff htop
  | _ => simp [Json.items?]

/-- **The check accepts exactly the specified form.**  Nothing is reported of a value exactly if it
    is a list of blocks in the specified form, for every set of registered kinds.  The check as a
    result succeeds on these values, and on all others it fails with all that is reported. -/
theorem structure_accepts_iff_format (has : Kind → Bool) (v : Json) :
    (structureFaults has v = [] ↔ ListFormat has v) ∧
      (ensureStructure has v = .ok () ↔ ListFormat has v) ∧
      ∀ failure, ensureStructure has v = .error failure ↔
        ¬ ListFormat has v ∧ failure = .structure (structureFaults has v) := by
  rw [← structureFaults_eq_nil_iff, ensureStructure]
  refine ⟨Iff.rfl, ?_⟩
  cases structureFaults has v with
  | nil => simp
  | cons report reports => simp [eq_comm]

/-- A row with a text in its column has the form, and one with a row in its column does not. -/
example :
    let block (type : String) (props : Members) : Json :=
      .object [("id", .string "00000001-1111-4222-8333-000000000001"), ("props", .object props),
        ("type", .string type)]
    let rowOf (item : Json) : Json :=
      block "row" [("columns", .array [.object [("blocks", .array [item])]])]
    ListFormat Registry.builtin.has (.array [rowOf (block "text" [])]) ∧
      ¬ ListFormat Registry.builtin.has (.array [rowOf (block "row" [])]) := by
  simp only [← structureFaults_eq_nil_iff]
  decide +kernel

end Letterpress.Validation
