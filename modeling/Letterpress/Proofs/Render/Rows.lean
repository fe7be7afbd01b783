/-
  Rows that are written by way of their props.

  A row as a block is written as members, completed with those of a new row, and read again.

  * `Settles`: the markup of a block, whatever number of levels it takes; `settles_rowLayout` puts
    the blocks of a row together.
  * `Shallow` are the registries in which only rows are written with the blocks inside them; for
    these two levels of blocks are enough (`Shallow.settles`).
  * `renderTo_row`: with the renderer of rows, a row is the layout that its members are read as.
  * `row_through_props`: **a row that can be stored is written as its own layout**, with nothing
    taken from a new row.
-/
import Letterpress.Proofs.Render.Sections

namespace Letterpress

namespace Render

variable {child child' : Kind → Members → String}

/-- A row asks for its blocks that are no rows, and for nothing else. -/
theorem rowLayout_congr {l : RowLayout}
    (h : ∀ c ∈ l.columns, ∀ b ∈ c.blocks, b.kind.isRow = false →
      child b.kind b.props = child' b.kind b.props) : rowLayout child l = rowLayout child' l := by
  have hcolumns : l.columns.mapIdx (column child l.gap l.columns.length) =
      l.columns.mapIdx (column child' l.gap l.columns.length) := by
    refine List.mapIdx_eq_mapIdx_iff.2 fun index hindex => ?_
    rw [column, column]
    refine congrArg (Markup.element _ _) (congrArg String.join (List.map_congr_left fun b hb => ?_))
    obtain ⟨hmem, hinner⟩ := List.mem_filter.1 hb
    exact h _ (List.getElem_mem hindex) b hmem (by simpa using hinner)
  rw [rowLayout, rowLayout, hcolumns]

/-- All blocks of a row that can be stored are written, in order. -/
theorem rowLayout_of_storable (child : Kind → Members → String) {l : RowLayout}
    (h : l.Storable Json.Number.Finite) :
    rowLayout child l =
      Markup.element "mj-section" (sectionAttributes l.style l.stackOnMobile)
        (String.join (l.columns.mapIdx fun index c =>
          Markup.element "mj-column"
            (columnAttributes c.width (c.style.getD .plain) l.gap index l.columns.length)
            (String.join (c.blocks.map fun b => child b.kind b.props)))) := by
  rw [rowLayout]
  refine congrArg (Markup.element _ _) (congrArg String.join ?_)
  refine List.mapIdx_eq_mapIdx_iff.2 fun index hindex => ?_
  have hc := h.columns _ (List.getElem_mem hindex)
  have hinner : (l.columns[index].blocks.filter fun b => !b.kind.isRow) = l.columns[index].blocks :=
    List.filter_eq_self.2 fun b hb => by simp [(hc.blocks b hb).notRow]
  rw [column, hinner]

end Render

namespace Registry

open Render

variable {reg : Registry}

/-! ## Levels of blocks -/

/-- With enough levels inside, the block is written as the text. -/
def Settles (reg : Registry) (ids : Supply) (data : Members) (kind : Kind) (props : Members)
    (text : String) : Prop :=
  ∃ levels, ∀ depth, levels ≤ depth → reg.renderTo ids data depth kind props = text

variable {ids : Supply} {data : Members}

theorem Settles.unique {kind : Kind} {props : Members} {text text' : String}
    (h : reg.Settles ids data kind props text) (h' : reg.Settles ids data kind props text') :
    text = text' := by
  obtain ⟨levels, h⟩ := h
  obtain ⟨levels', h'⟩ := h'
  rw [← h _ (Nat.le_max_left levels levels'), h' _ (Nat.le_max_right levels levels')]

/-- What holds from some number on for each of some things holds from some number on for all. -/
theorem exists_common_levels {β : Type} {holds : Nat → β → Prop} {bs : List β}
    (h : ∀ b ∈ bs, ∃ levels, ∀ depth, levels ≤ depth → holds depth b) :
    ∃ levels, ∀ depth, levels ≤ depth → ∀ b ∈ bs, holds depth b := by
  induction bs with
  | nil => exact ⟨0, fun _ _ b hb => absurd hb List.not_mem_nil⟩
  | cons b bs ih =>
    obtain ⟨⟨levels, hb⟩, hbs⟩ := List.forall_mem_cons.1 h
    obtain ⟨levels', hbs⟩ := ih hbs
    refine ⟨max levels levels', fun depth hdepth => List.forall_mem_cons.2 ⟨?_, ?_⟩⟩
    · exact hb depth ((Nat.le_max_left _ _).trans hdepth)
    · exact hbs depth ((Nat.le_max_right _ _).trans hdepth)

/-- Once all blocks of a row are written, the layout is. -/
theorem settles_rowLayout (child : Kind → Members → String) {l : RowLayout}
    (h : ∀ c ∈ l.columns, ∀ b ∈ c.blocks,
      reg.Settles ids data b.kind b.props (child b.kind b.props)) :
    ∃ levels, ∀ depth, levels ≤ depth →
      rowLayout (reg.renderTo ids data depth) l = rowLayout child l := by
  obtain ⟨levels, hlevels⟩ := exists_common_levels fun c hc => exists_common_levels (h c hc)
  exact ⟨levels, fun depth hdepth => rowLayout_congr fun c hc b hb _ => hlevels depth hdepth c hc b hb⟩

/-! ## Registries in which rows alone have blocks inside -/

/-- Only the renderer of rows looks at the blocks inside. -/
def Shallow (reg : Registry) : Prop :=
  ∀ kind r, kind.isRow = false → reg.renderer? kind = some r →
    ∀ child child', r.write child = r.write child'

theorem shallow_builtin : builtin.Shallow := by
  intro kind r hkind hr child child'
  rw [renderer?_builtin] at hr
  cases kind with
  | row => cases hkind
  | custom name => cases hr
  | _ =>
    cases hr
    rfl

theorem renderer?_register (kind : Kind) (r : Renderer) (reg : Registry) (k : Kind) :
    (register kind r reg).renderer? k = if k = kind then some r else reg.renderer? k := by
  simp only [renderer?]
  induction reg with
  | nil =>
    simp only [register, List.lookup_cons, List.lookup_nil]
    grind
  | cons entry reg ih =>
    rw [register]
    -- the renderer takes the place of the entry, stands before it, or comes later
    split_ifs <;> simp only [List.lookup_cons] <;> grind

/-- A further renderer that needs nothing but the props keeps the registry shallow. -/
theorem Shallow.register (h : reg.Shallow) (kind : Kind) {r : Renderer}
    (hr : ∀ child child', r.write child = r.write child') : (reg.register kind r).Shallow := by
  intro k r' hk hget child child'
  rw [renderer?_register] at hget
  split at hget
  · cases hget
    exact hr child child'
  · exact h k r' hk hget child child'

/-- A block that is no row is written alike with any number of levels. -/
theorem Shallow.renderTo_succ (h : reg.Shallow) (ids : Supply) (data : Members) {kind : Kind}
    (hkind : kind.isRow = false) (depth depth' : Nat) (props : Members) :
    reg.renderTo ids data (depth + 1) kind props = reg.renderTo ids data (depth' + 1) kind props := by
  rw [renderTo, renderTo]
  cases hr : reg.renderer? kind with
  | none => rfl
  | some r => simp only [renderWith, h kind r hkind hr (reg.renderTo ids data depth)
      (reg.renderTo ids data depth')]

section

variable (hrow : reg.renderer? .row = Renderer.builtin? .row)
include hrow

/-- A row is the layout that its completed props are read as. -/
theorem renderTo_row (ids : Supply) (data : Members) (depth : Nat) (props : Members) :
    reg.renderTo ids data (depth + 1) .row props =
      row (reg.renderTo ids data depth) (complete ids .row props) := by
  rw [renderTo, hrow]
  rfl

/-- Two levels are enough. -/
theorem Shallow.settles (h : reg.Shallow) (ids : Supply) (data : Members) (kind : Kind)
    (props : Members) :
    reg.Settles ids data kind props (reg.render ids kind props data) := by
  refine ⟨2, fun depth hdepth => ?_⟩
  obtain ⟨depth, rfl⟩ := Nat.exists_eq_add_of_le' hdepth
  rw [render]
  cases hkind : kind.isRow with
  | false => exact h.renderTo_succ ids data hkind (depth + 1) Json.maxDepth props
  | true =>
    obtain rfl := eq_of_beq hkind
    rw [renderTo_row hrow, renderTo_row hrow, row, row]
    cases RowLayout.ofMembers? (complete ids .row props) with
    | none => rfl
    | some l =>
      exact rowLayout_congr fun _ _ b _ hinner => h.renderTo_succ ids data hinner depth 126 b.props

/-- **A row that can be stored is written as its own layout.**  Set over the members of any row, its
    members are read as the row again; so the block is written, with any number of levels inside, as
    the layout of its row.  If the blocks in the row are written as `child` gives them, then so they
    stand in the markup of the row; in a shallow registry this is how each is written alone.  The
    columns and their blocks stand in order. -/
theorem row_through_props {l : RowLayout} (hl : l.Storable Json.Number.Finite) (ids : Supply)
    (id : String) (data : Members) :
    (∀ initial : RowLayout,
      RowLayout.ofMembers? (initial.toMembers.extend (Block.row id l).props) = some l) ∧
    (∀ depth, reg.renderTo ids data (depth + 1) .row (Block.row id l).props =
      rowLayout (reg.renderTo ids data depth) l) ∧
    (∀ child, (∀ c ∈ l.columns, ∀ b ∈ c.blocks,
        reg.Settles ids data b.kind b.props (child b.kind b.props)) →
      reg.Settles ids data .row (Block.row id l).props (rowLayout child l)) ∧
    (reg.Shallow → reg.renderBlock ids (.row id l) data =
      rowLayout (fun kind props => reg.render ids kind props data) l) ∧
    ∀ child, rowLayout child l =
      Markup.element "mj-section" (sectionAttributes l.style l.stackOnMobile)
        (String.join (l.columns.mapIdx fun index c =>
          Markup.element "mj-column"
            (columnAttributes c.width (c.style.getD .plain) l.gap index l.columns.length)
            (String.join (c.blocks.map fun b => child b.kind b.props)))) := by
  have hread : RowLayout.ofMembers? l.toMembers = some l := hl.again?_eq
  have hdepth (depth : Nat) : reg.renderTo ids data (depth + 1) .row l.toMembers =
      rowLayout (reg.renderTo ids data depth) l := by
    rw [renderTo_row hrow, complete_toMembers, row, hread]
  have hsettles (child : Kind → Members → String) (hchild : ∀ c ∈ l.columns, ∀ b ∈ c.blocks,
      reg.Settles ids data b.kind b.props (child b.kind b.props)) :
      reg.Settles ids data .row l.toMembers (rowLayout child l) := by
    obtain ⟨levels, hlevels⟩ := settles_rowLayout child hchild
    refine ⟨levels + 1, fun depth hle => ?_⟩
    obtain ⟨depth, rfl⟩ := Nat.exists_eq_add_of_le' ((Nat.le_add_left 1 levels).trans hle)
    rw [hdepth, hlevels depth (Nat.le_of_succ_le_succ hle)]
  refine ⟨fun initial => ?_, hdepth, hsettles, fun hshallow => ?_, fun child =>
    rowLayout_of_storable child hl⟩
  · rw [Block.props, RowLayout.extend_toMembers, hread]
  · have halone := hshallow.settles hrow ids data
    exact (halone .row l.toMembers).unique (hsettles _ fun _ _ b _ => halone b.kind b.props)

end

/-- A row without any decision on its look, with a block of a further kind. -/
theorem row_through_props_of_card :
    let card : Renderer := ⟨return [], fun _ props _ => Props.textOr props "title" "?"⟩
    let reg := builtin.register (.custom "card") card
    let ids : Supply := ⟨fun _ => "x", 0⟩
    let c : Column := ⟨"c", "100%", [⟨"b", .custom "card", [("title", .string "Hi")]⟩], none⟩
    let l : RowLayout := ⟨.custom, [c], 0.0, false, ⟨none, none, none, none, none, none, none⟩⟩
    l.Storable Json.Number.Finite ∧ reg.Shallow ∧
    reg.renderBlock ids (.row "r" l) [] =
      rowLayout (fun kind props => reg.render ids kind props []) l ∧
    reg.renderBlock ids (.row "r" l) [] =
      "<mj-section padding=\"0px 0px 0px 0px\" css-class=\"no-stack\">" ++
        "<mj-column width=\"100%\" vertical-align=\"top\">Hi</mj-column></mj-section>" := by
  intro card reg ids c l
  have hshallow : reg.Shallow := shallow_builtin.register _ fun _ _ => rfl
  have hprops : (Json.object [("title", .string "Hi")]).IsFinite := by decide
  have hc : c.Storable Json.Number.Finite :=
    ⟨List.forall_mem_singleton.2 ⟨by decide, rfl, hprops⟩, by rintro s ⟨⟩⟩
  have hl : l.Storable Json.Number.Finite :=
    ⟨List.forall_mem_singleton.2 hc, by decide, by decide⟩
  have hrow : reg.renderer? .row = Renderer.builtin? .row := rfl
  exact ⟨hl, hshallow, (row_through_props hrow hl ids "r" []).2.2.2.1 hshallow, by decide +kernel⟩

end Registry

end Letterpress
