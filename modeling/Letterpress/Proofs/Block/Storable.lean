/-
  What blocks can be that come from a stored document.

  * `Block.Storable p`: each content block has a kind that a name stands for, and not that of a
    row, and all numbers satisfy `p`.
  * What is read from a value with such numbers is storable (`Block.storable_of_ofJson?`), new
    blocks and copies are, and props with such numbers can be set (`Block.Storable.mergeProps?`).
    What is storable is written with such numbers (`RowLayout.Storable.toMembers`).
-/
import Letterpress.Editor.Edit
import Letterpress.Proofs.Block.Identifiers
import Letterpress.Proofs.Block.Merging
import Letterpress.Proofs.Json.Numbers

namespace Letterpress

open Json (AllNumbers absent_forall optional_forall allNumbers_real allNumbers_record)
open Json.Number (KeptAsDouble)
open Minting

variable {p : Json.Number → Prop} {v : Json}

/-! ## Kinds -/

namespace Kind

/-- The kind is the one that its name stands for. -/
def IsNamed (k : Kind) : Prop := ofName k.name = k

instance (k : Kind) : Decidable k.IsNamed := inferInstanceAs (Decidable (_ = _))

theorem isNamed_ofName (s : String) : (ofName s).IsNamed := congrArg ofName (name_ofName s)

/-- A kind that is not the one of rows has not its name either. -/
theorem IsNamed.name_ne_row {k : Kind} (h : k.IsNamed) (hrow : k.isRow = false) :
    k.name ≠ "row" := by
  intro hname
  rw [IsNamed, hname] at h
  rw [← h] at hrow
  exact absurd hrow (by decide)

theorem isNamed_of_ofJson? {k : Kind} (h : ofJson? v = some k) : k.IsNamed := by
  obtain ⟨s, -, rfl⟩ := Option.map_eq_some_iff.1 h
  exact isNamed_ofName s

end Kind

/-! ## Fields -/

section

variable {field : Option Json} {x : Float}

theorem double_of_absent (hp : KeptAsDouble p) {whenMissing : Float}
    (hmissing : whenMissing.isFinite = true) (hfield : ∀ w ∈ field, AllNumbers p w)
    (h : Json.absent whenMissing Json.double? field = some x) : p (.real x) :=
  absent_forall (P := fun x => p (.real x)) h (hp.of_isFinite _ hmissing)
    fun w hw _ hx => (hfield w hw).double? hp hx

theorem double_of_optional (hp : KeptAsDouble p) {o : Option Float}
    (hfield : ∀ w ∈ field, AllNumbers p w) (h : Json.optional Json.double? field = some o) :
    ∀ x ∈ o, p (.real x) :=
  optional_forall h fun w hw _ _ hx => (hfield w hw).double? hp hx

end

/-! ## Styles -/

/-- The doubles in the style. -/
def ColumnStyle.doubles (s : ColumnStyle) : List Float :=
  s.overlayOpacity.toList ++ s.padding.toList.flatMap Padding.sides ++ s.borderRadius.toList

/-- The doubles in the style. -/
def RowStyle.doubles (s : RowStyle) : List Float :=
  s.padding.toList.flatMap Padding.sides ++ s.borderRadius.toList

theorem Padding.sides_of_ofJson? (hp : KeptAsDouble p) (hv : v.AllNumbers p) {s : Padding}
    (h : ofJson? v = some s) : ∀ x ∈ s.sides, p (.real x) := by
  simp only [ofJson?, Option.bind_eq_bind, Option.bind_eq_some_iff] at h
  obtain ⟨vs, hvs, h⟩ := h
  have hfields := hv.field hvs
  split at h
  · simp only [Option.bind_eq_some_iff] at h
    obtain ⟨top, htop, right, hright, bottom, hbottom, left, hleft, ⟨⟩⟩ := h
    simp only [List.forall_mem_cons] at hfields
    obtain ⟨htop', hright', hbottom', hleft', -⟩ := hfields
    have hzero : (0.0 : Float).isFinite = true := by decide
    simp only [sides, List.forall_mem_cons]
    exact ⟨double_of_absent hp hzero htop' htop, double_of_absent hp hzero hright' hright,
      double_of_absent hp hzero hbottom' hbottom, double_of_absent hp hzero hleft' hleft,
      fun x hx => absurd hx List.not_mem_nil⟩
  · cases h

theorem Padding.allNumbers_toJson {s : Padding} (h : ∀ x ∈ s.sides, p (.real x)) :
    s.toJson.AllNumbers p := by
  simp only [sides, List.forall_mem_cons] at h
  refine allNumbers_record ?_
  simp [allNumbers_real, h]

theorem sides_of_optional (hp : KeptAsDouble p) {field : Option Json} {o : Option Padding}
    (hfield : ∀ w ∈ field, AllNumbers p w) (h : Json.optional Padding.ofJson? field = some o) :
    ∀ s ∈ o, ∀ x ∈ s.sides, p (.real x) :=
  optional_forall h fun w hw _ _ hs => Padding.sides_of_ofJson? hp (hfield w hw) hs

theorem ColumnStyle.doubles_of_ofJson? (hp : KeptAsDouble p) (hv : v.AllNumbers p)
    {s : ColumnStyle} (h : ofJson? v = some s) : ∀ x ∈ s.doubles, p (.real x) := by
  simp only [ofJson?, Option.bind_eq_bind, Option.bind_eq_some_iff] at h
  obtain ⟨vs, hvs, h⟩ := h
  have hfields := hv.field hvs
  split at h
  · simp only [Option.bind_eq_some_iff] at h
    obtain ⟨-, -, -, -, -, -, -, -, -, -, opacity, hopacity, -, -, padding, hpadding, radius,
      hradius, ⟨⟩⟩ := h
    simp only [List.forall_mem_cons] at hfields
    obtain ⟨-, -, -, -, -, hopacity', -, hpadding', hradius', -⟩ := hfields
    have h₁ := double_of_optional hp hopacity' hopacity
    have h₂ := sides_of_optional hp hpadding' hpadding
    have h₃ := double_of_optional hp hradius' hradius
    simp only [doubles, List.forall_mem_append, List.forall_mem_flatMap, Option.mem_toList]
    exact ⟨⟨h₁, h₂⟩, h₃⟩
  · cases h

theorem ColumnStyle.allNumbers_toJson {s : ColumnStyle} (h : ∀ x ∈ s.doubles, p (.real x)) :
    s.toJson.AllNumbers p := by
  simp only [doubles, List.forall_mem_append, List.forall_mem_flatMap, Option.mem_toList] at h
  refine allNumbers_record ?_
  simp +contextual [allNumbers_real, Padding.allNumbers_toJson, h]

theorem RowStyle.doubles_of_ofJson? (hp : KeptAsDouble p) (hv : v.AllNumbers p)
    {s : RowStyle} (h : ofJson? v = some s) : ∀ x ∈ s.doubles, p (.real x) := by
  simp only [ofJson?, Option.bind_eq_bind, Option.bind_eq_some_iff] at h
  obtain ⟨vs, hvs, h⟩ := h
  have hfields := hv.field hvs
  split at h
  · simp only [Option.bind_eq_some_iff] at h
    obtain ⟨-, -, -, -, -, -, -, -, padding, hpadding, radius, hradius, -, -, ⟨⟩⟩ := h
    simp only [List.forall_mem_cons] at hfields
    obtain ⟨-, -, -, -, hpadding', hradius', -⟩ := hfields
    have h₁ := sides_of_optional hp hpadding' hpadding
    have h₂ := double_of_optional hp hradius' hradius
    simp only [doubles, List.forall_mem_append, List.forall_mem_flatMap, Option.mem_toList]
    exact ⟨h₁, h₂⟩
  · cases h

theorem RowStyle.allNumbers_toJson {s : RowStyle} (h : ∀ x ∈ s.doubles, p (.real x)) :
    s.toJson.AllNumbers p := by
  simp only [doubles, List.forall_mem_append, List.forall_mem_flatMap, Option.mem_toList] at h
  refine allNumbers_record ?_
  simp +contextual [allNumbers_real, Padding.allNumbers_toJson, h]

theorem RowStyle.doubles_initial (hp : KeptAsDouble p) : ∀ x ∈ initial.doubles, p (.real x) := by
  have hfinite : ∀ x ∈ initial.doubles, x.isFinite = true := by decide
  exact fun x hx => hp.of_isFinite (.real x) (hfinite x hx)

/-! ## Storable blocks -/

/-- A content block that can be stored: with a kind that is read from its name, but not as that of
    a row. -/
structure ContentBlock.Storable (p : Json.Number → Prop) (b : ContentBlock) : Prop where
  isNamed : b.kind.IsNamed
  notRow : b.kind.isRow = false
  props : AllNumbers p (.object b.props)

/-- A column of blocks that can be stored. -/
structure Column.Storable (p : Json.Number → Prop) (c : Column) : Prop where
  blocks : ∀ b ∈ c.blocks, b.Storable p
  style : ∀ s ∈ c.style, ∀ x ∈ s.doubles, p (.real x)

/-- A row of columns that can be stored. -/
structure RowLayout.Storable (p : Json.Number → Prop) (l : RowLayout) : Prop where
  columns : ∀ c ∈ l.columns, c.Storable p
  gap : p (.real l.gap)
  style : ∀ x ∈ l.style.doubles, p (.real x)

/-- A block that can be stored. -/
def Block.Storable (p : Json.Number → Prop) : Block → Prop
  | .content b => b.Storable p
  | .row _ l => l.Storable p

/-! ## Reading -/

theorem RawBlock.storable_of_ofJson? {r : RawBlock} (h : ofJson? v = some r)
    (hv : v.AllNumbers p) : r.kind.IsNamed ∧ AllNumbers p (.object r.props) := by
  simp only [ofJson?, Option.bind_eq_bind, Option.bind_eq_some_iff] at h
  obtain ⟨vs, hvs, h⟩ := h
  have hfields := hv.field hvs
  split at h
  · rename_i id kind props
    simp only [Option.bind_eq_some_iff] at h
    obtain ⟨id', -, kind', hkind, props', hprops, ⟨⟩⟩ := h
    simp only [List.forall_mem_cons] at hfields
    obtain ⟨-, -, hprops', -⟩ := hfields
    constructor
    · cases kind with
      | none => cases hkind
      | some w => exact Kind.isNamed_of_ofJson? hkind
    · refine absent_forall (P := fun ms => AllNumbers p (.object ms)) hprops (by simp) ?_
      intro w hw ms hms
      cases w with
      | object ms' =>
        cases hms
        exact hprops' _ hw
      | _ => cases hms
  · cases h

theorem ContentBlock.storable_of_ofRaw {r : RawBlock} {b : ContentBlock}
    (h : ofRaw r = .ok b) (hkind : r.kind.IsNamed) (hprops : AllNumbers p (.object r.props)) :
    b.Storable p := by
  rw [ofRaw] at h
  split at h
  · cases h
  · rename_i hrow
    cases h
    exact ⟨hkind, Bool.eq_false_iff.2 hrow, hprops⟩

theorem ContentBlock.storable_of_ofJson {b : ContentBlock} (h : ofJson v = .ok b)
    (hv : v.AllNumbers p) : b.Storable p := by
  obtain ⟨r, hr, h⟩ := orFault_bind_eq_ok h
  obtain ⟨hkind, hprops⟩ := RawBlock.storable_of_ofJson? hr hv
  exact storable_of_ofRaw h hkind hprops

theorem ContentBlock.storable_of_listOfJson {field : Option Json} {bs : List ContentBlock}
    (h : listOfJson field = .ok bs) (hfield : ∀ w ∈ field, AllNumbers p w) :
    ∀ b ∈ bs, b.Storable p := by
  unfold listOfJson at h
  split at h
  · cases h
    exact fun b hb => absurd hb List.not_mem_nil
  · rename_i items
    have hitems := (Json.allNumbers_array items).1 (hfield _ rfl)
    exact forall_of_mapM_eq_ok h fun w hw b hb => storable_of_ofJson hb (hitems w hw)
  · cases h

theorem Column.storable_of_ofJson (hp : KeptAsDouble p) {c : Column} (h : ofJson v = .ok c)
    (hv : v.AllNumbers p) : c.Storable p := by
  rw [ofJson] at h
  obtain ⟨vs, hvs, h⟩ := orFault_bind_eq_ok h
  have hfields := hv.field hvs
  split at h
  · dsimp only at h
    split at h
    · cases h
    · obtain ⟨blocks, hblocks, h⟩ := except_bind_eq_ok h
      obtain ⟨id, -, h⟩ := orFault_bind_eq_ok h
      obtain ⟨width, -, h⟩ := orFault_bind_eq_ok h
      obtain ⟨style, hstyle, h⟩ := orFault_bind_eq_ok h
      cases h
      simp only [List.forall_mem_cons] at hfields
      obtain ⟨-, -, hblocks', hstyle', -⟩ := hfields
      refine ⟨ContentBlock.storable_of_listOfJson hblocks hblocks', ?_⟩
      exact optional_forall hstyle fun w hw _ _ hs =>
        ColumnStyle.doubles_of_ofJson? hp (hstyle' w hw) hs
  · cases h

theorem Column.storable_of_listOfJson (hp : KeptAsDouble p) {field : Option Json}
    {cs : List Column} (h : listOfJson field = .ok cs) (hfield : ∀ w ∈ field, AllNumbers p w) :
    ∀ c ∈ cs, c.Storable p := by
  unfold listOfJson at h
  split at h
  · cases h
    exact fun c hc => absurd hc List.not_mem_nil
  · rename_i items
    have hitems := (Json.allNumbers_array items).1 (hfield _ rfl)
    exact forall_of_mapM_eq_ok h fun w hw c hc => storable_of_ofJson hp hc (hitems w hw)
  · cases h

theorem RowLayout.storable_of_ofJson (hp : KeptAsDouble p) {l : RowLayout} (h : ofJson v = .ok l)
    (hv : v.AllNumbers p) : l.Storable p := by
  rw [ofJson] at h
  obtain ⟨vs, hvs, h⟩ := orFault_bind_eq_ok h
  have hfields := hv.field hvs
  split at h
  · obtain ⟨columns, hcolumns, h⟩ := except_bind_eq_ok h
    obtain ⟨preset, -, h⟩ := orFault_bind_eq_ok h
    obtain ⟨gap, hgap, h⟩ := orFault_bind_eq_ok h
    obtain ⟨stack, -, h⟩ := orFault_bind_eq_ok h
    obtain ⟨style, hstyle, h⟩ := orFault_bind_eq_ok h
    cases h
    simp only [List.forall_mem_cons] at hfields
    obtain ⟨-, hcolumns', hgap', -, hstyle', -⟩ := hfields
    refine ⟨Column.storable_of_listOfJson hp hcolumns hcolumns',
      double_of_absent hp (by decide) hgap' hgap, ?_⟩
    exact absent_forall (P := fun s => ∀ x ∈ RowStyle.doubles s, p (.real x)) hstyle
      (RowStyle.doubles_initial hp) fun w hw _ hs =>
        RowStyle.doubles_of_ofJson? hp (hstyle' w hw) hs
  · cases h

theorem RowLayout.storable_of_ofMembers? (hp : KeptAsDouble p) {ms : Members} {l : RowLayout}
    (h : ofMembers? ms = some l) (hms : AllNumbers p (.object ms)) : l.Storable p := by
  rw [ofMembers?] at h
  cases hread : ofJson (.object ms) with
  | error fault =>
    rw [hread] at h
    cases h
  | ok l' =>
    rw [hread] at h
    cases h
    exact storable_of_ofJson hp hread hms

/-- **What is read is storable.** -/
theorem Block.storable_of_ofJson? (hp : KeptAsDouble p) {b : Block} (h : ofJson? v = some b)
    (hv : v.AllNumbers p) : b.Storable p := by
  obtain ⟨r, hr, h⟩ := Option.bind_eq_some_iff.1 h
  obtain ⟨hkind, hprops⟩ := RawBlock.storable_of_ofJson? hr hv
  rw [ofRaw] at h
  split at h
  · cases hread : RowLayout.ofJson (.object r.props) with
    | error fault =>
      rw [hread] at h
      cases h
    | ok l =>
      rw [hread] at h
      cases h
      exact RowLayout.storable_of_ofJson hp hread hprops
  · cases hread : ContentBlock.ofRaw r with
    | error fault =>
      rw [hread] at h
      cases h
    | ok c =>
      rw [hread] at h
      cases h
      exact ContentBlock.storable_of_ofRaw hread hkind hprops

/-! ## Writing -/

theorem ContentBlock.Storable.toJson {b : ContentBlock} (h : b.Storable p) :
    b.toJson.AllNumbers p := by
  refine allNumbers_record ?_
  simpa [ContentBlock.toRaw] using h.props

theorem Column.Storable.toJson {c : Column} (h : c.Storable p) : c.toJson.AllNumbers p := by
  have hblocks : ∀ b ∈ c.blocks, b.toJson.AllNumbers p := fun b hb => (h.blocks b hb).toJson
  have hstyle : ∀ s ∈ c.style, s.toJson.AllNumbers p :=
    fun s hs => ColumnStyle.allNumbers_toJson (h.style s hs)
  refine allNumbers_record ?_
  simpa using ⟨hblocks, hstyle⟩

theorem RowLayout.Storable.toMembers {l : RowLayout} (h : l.Storable p) :
    AllNumbers p (.object l.toMembers) := by
  have hcolumns : ∀ c ∈ l.columns, c.toJson.AllNumbers p := fun c hc => (h.columns c hc).toJson
  refine Json.allNumbers_ofPairs ?_
  simpa using ⟨hcolumns, allNumbers_real h.gap, RowStyle.allNumbers_toJson h.style⟩

/-! ## Setting props -/

theorem ContentBlock.Storable.extend {b : ContentBlock} (h : b.Storable p) {updates : Members}
    (hupdates : AllNumbers p (.object updates)) :
    ContentBlock.Storable p { b with props := b.props.extend updates } :=
  ⟨h.isNamed, h.notRow, Json.allNumbers_extend h.props hupdates⟩

/-- Setting props keeps a block storable: those of a row are read again. -/
theorem Block.Storable.mergeProps? (hp : KeptAsDouble p) {b b' : Block} (hb : b.Storable p)
    {updates : Members} (hupdates : AllNumbers p (.object updates))
    (h : b.mergeProps? updates = some b') : b'.Storable p := by
  cases b with
  | content c =>
    cases h
    exact ContentBlock.Storable.extend hb hupdates
  | row id l =>
    obtain ⟨l', hl', rfl⟩ := Option.map_eq_some_iff.1 h
    exact RowLayout.storable_of_ofMembers? hp hl'
      (Json.allNumbers_extend (RowLayout.Storable.toMembers hb) hupdates)

/-! ## New blocks and copies -/

theorem allNumbers_contentDefaults (hp : KeptAsDouble p) (kind : Kind) :
    AllNumbers p (.object (contentDefaults kind)) := by
  have hfinite : (Json.object (contentDefaults kind)).IsFinite := by
    cases kind with
    | custom name => exact (Json.allNumbers_object []).2 fun m hm => absurd hm List.not_mem_nil
    | _ => decide
  exact fun n hn => hp.of_isFinite n (hfinite n hn)

theorem Column.storable_make (width : String) :
    Ensures (Column.make width) fun c => c.Storable p :=
  ensures_bind fun id => ensures_pure ⟨fun b hb => absurd hb List.not_mem_nil, by rintro s ⟨⟩⟩

theorem RowLayout.storable_make (hp : KeptAsDouble p) (preset : Preset) :
    Ensures (RowLayout.make preset) fun l => l.Storable p := by
  have hgap : p (.real initialGap) := hp.of_isFinite _ (by decide)
  exact (ensures_mapM fun width _ => Column.storable_make width).bind fun _ hcolumns =>
    ensures_pure ⟨hcolumns, hgap, RowStyle.doubles_initial hp⟩

theorem allNumbers_defaultProps (hp : KeptAsDouble p) (kind : Kind) :
    Ensures (defaultProps kind) fun props => AllNumbers p (.object props) := by
  rw [defaultProps.eq_def]
  split
  · exact (RowLayout.storable_make hp .twoEqual).bind fun l hl => ensures_pure hl.toMembers
  · exact ensures_pure (allNumbers_contentDefaults hp kind)

theorem ContentBlock.storable_make? {kind : Kind} (hkind : kind.IsNamed) {props : Members}
    (hprops : AllNumbers p (.object props)) :
    Ensures (ContentBlock.make? kind props) fun made => ∀ b ∈ made, b.Storable p := by
  rw [ContentBlock.make?]
  split
  · exact ensures_pure (by rintro b ⟨⟩)
  · rename_i hrow
    refine ensures_bind fun id => ensures_pure ?_
    rintro b ⟨⟩
    exact ⟨hkind, Bool.eq_false_iff.2 hrow, hprops⟩

theorem Editor.storable_newBlock (hp : KeptAsDouble p) {kind : Kind} (hkind : kind.IsNamed) :
    Ensures (Editor.newBlock kind) fun b => b.Storable p := by
  refine (allNumbers_defaultProps hp kind).bind fun props hprops =>
    (ContentBlock.storable_make? hkind hprops).bind fun made hmade => ?_
  cases made with
  | some b => exact ensures_pure (hmade b rfl)
  | none =>
    exact (RowLayout.storable_make hp .twoEqual).bind fun l hl =>
      ensures_bind fun id => ensures_pure hl

theorem ContentBlock.Storable.duplicate {b : ContentBlock} (h : b.Storable p) :
    Ensures b.duplicate fun copy => copy.Storable p :=
  ensures_bind fun _ => ensures_pure ⟨h.isNamed, h.notRow, h.props⟩

theorem Column.Storable.duplicate {c : Column} (h : c.Storable p) :
    Ensures c.duplicate fun copy => copy.Storable p :=
  ensures_bind fun _ => (ensures_mapM fun b hb => (h.blocks b hb).duplicate).bind
    fun _ hblocks => ensures_pure ⟨hblocks, h.style⟩

theorem Block.Storable.duplicate {b : Block} (h : b.Storable p) :
    Ensures b.duplicate fun copy => copy.Storable p := by
  cases b with
  | content b => exact (ContentBlock.Storable.duplicate h).bind fun copy hcopy => ensures_pure hcopy
  | row id l =>
    obtain ⟨hcolumns, hgap, hstyle⟩ := h
    have hlayout : Ensures l.duplicate fun copy => copy.Storable p :=
      (ensures_mapM fun c hc => (hcolumns c hc).duplicate).bind fun _ hcolumns =>
        ensures_pure ⟨hcolumns, hgap, hstyle⟩
    exact hlayout.bind fun copy hcopy => ensures_bind fun id => ensures_pure hcopy

end Letterpress
