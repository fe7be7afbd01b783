/-
  Markup without a trace of identifiers and data.

  * `complete_toMembers`, `rowAlike_complete`: the minted columns of a new row either give way to
    the columns of a row or differ in identifiers alone.
  * `rowTokens_anonymous`: a row is written without looking at identifiers.
  * `renderBlock_eq`: blocks that differ in identifiers alone are written alike, with any data and
    any identifiers in supply.
  * `markup_of_layout_and_props`: **the document depends on layout and props alone**, and the data
    comes into the page only after it is compiled.
-/
import Letterpress.Proofs.Block.Anonymous
import Letterpress.Proofs.Render.Tokens
import Letterpress.Render.Page

namespace Letterpress.Render

/-! ## Complete props -/

theorem complete_of_not_row (ids ids' : Supply) {kind : Kind} (h : kind.isRow = false)
    (props : Members) : complete ids kind props = complete ids' kind props := by
  cases kind with
  | row => cases h
  | _ => rfl

theorem complete_row (ids : Supply) (props : Members) :
    complete ids .row props = (RowLayout.make .twoEqual ids).1.toMembers.extend props := by
  rw [complete, defaultProps]
  rfl

theorem complete_toMembers (ids : Supply) (l : RowLayout) :
    complete ids .row l.toMembers = l.toMembers := by
  rw [complete_row, RowLayout.extend_toMembers]

/-- Other props of the kind of rows are completed with columns that differ in identifiers. -/
theorem rowAlike_complete (ids ids' : Supply) (props : Members) :
    RowAlike (complete ids .row props) (complete ids' .row props) := by
  have hmake := RowLayout.anonymous_make .twoEqual
  rw [complete_row, complete_row]
  exact (RowAlike.of_anonymous ((hmake ids).trans (hmake ids').symm)).extend props

theorem innerTokens_of_not_row (ids ids' : Supply) {kind : Kind} (h : kind.isRow = false)
    (props : Members) : innerTokens ids kind props = innerTokens ids' kind props := by
  rw [innerTokens, innerTokens, complete_of_not_row ids ids' h]

/-! ## Rows -/

section

variable (child : Kind → Members → List Markup.Token)

theorem innerBlocks_anonymous (c : Column) :
    innerBlocks c.anonymous = (innerBlocks c).map ContentBlock.anonymous := by
  rw [innerBlocks, innerBlocks, Column.anonymous, List.filter_map]
  rfl

theorem columnTokens_anonymous (gap : Float) (total index : Nat) (c : Column) :
    columnTokens child gap total index c.anonymous = columnTokens child gap total index c := by
  rw [columnTokens, columnTokens, innerBlocks_anonymous, List.flatMap_map]
  rfl

/-- **A row is written without looking at identifiers.** -/
theorem rowTokens_anonymous (l : RowLayout) : rowTokens child l.anonymous = rowTokens child l := by
  rw [rowTokens, rowTokens, RowLayout.anonymous]
  dsimp only
  rw [List.zipIdx_map, List.flatMap_map, List.length_map]
  simp only [Prod.map_fst, Prod.map_snd, columnTokens_anonymous, id_eq]

variable {child} {child' : Kind → Members → List Markup.Token}

theorem rowTokens_congr
    (h : ∀ kind props, kind.isRow = false → child kind props = child' kind props) (l : RowLayout) :
    rowTokens child l = rowTokens child' l := by
  have hcolumn (index : Nat) (c : Column) : columnTokens child l.gap l.columns.length index c =
      columnTokens child' l.gap l.columns.length index c := by
    have hinner : (innerBlocks c).flatMap (fun b => child b.kind b.props) =
        (innerBlocks c).flatMap fun b => child' b.kind b.props :=
      List.flatMap_congr fun b hb => h b.kind b.props (by simpa using (List.mem_filter.1 hb).2)
    rw [columnTokens, columnTokens, hinner]
  simp only [rowTokens, hcolumn]

end

/-! ## Blocks -/

/-- Members that are alike are written alike. -/
theorem rowTokens_of_alike {ms ms' : Members} (h : RowAlike ms ms') (ids ids' : Supply) :
    (RowLayout.ofMembers? ms).elim [] (rowTokens (innerTokens ids)) =
      (RowLayout.ofMembers? ms').elim [] (rowTokens (innerTokens ids')) := by
  have hanonymous (o : Option RowLayout) (ids : Supply) : o.elim [] (rowTokens (innerTokens ids)) =
      (o.map RowLayout.anonymous).elim [] (rowTokens (innerTokens ids)) := by
    cases o with
    | none => rfl
    | some l => exact (rowTokens_anonymous _ l).symm
  rw [hanonymous, h.ofMembers?_eq, ← hanonymous]
  cases RowLayout.ofMembers? ms' with
  | none => rfl
  | some l =>
    exact rowTokens_congr (fun _ props hkind => innerTokens_of_not_row ids ids' hkind props) l

theorem blockTokens_of_ids (ids ids' : Supply) (kind : Kind) (props : Members) :
    blockTokens ids kind props = blockTokens ids' kind props := by
  rw [blockTokens, blockTokens]
  split
  · rename_i hkind
    obtain rfl := eq_of_beq hkind
    exact rowTokens_of_alike (rowAlike_complete ids ids' props) ids ids'
  · rename_i hkind
    exact innerTokens_of_not_row ids ids' (by simpa using hkind) props

theorem blockTokens_of_anonymous {b b' : Block} (h : b.anonymous = b'.anonymous)
    (ids ids' : Supply) :
    blockTokens ids b.kind b.props = blockTokens ids' b'.kind b'.props := by
  cases b with
  | content b =>
    cases b' with
    | content b' =>
      simp only [Block.anonymous, ContentBlock.anonymous, Block.content.injEq,
        ContentBlock.mk.injEq, true_and] at h
      simp only [Block.kind, Block.props, h]
      exact blockTokens_of_ids ids ids' _ _
    | row id' l' => cases h
  | row id l =>
    cases b' with
    | content b' => cases h
    | row id' l' =>
      simp only [Block.anonymous, Block.row.injEq, true_and] at h
      simp only [Block.kind, Block.props, blockTokens, complete_toMembers]
      exact rowTokens_of_alike (.of_anonymous h) ids ids'

/-- **Blocks that differ in identifiers alone are written alike**, with any data and with any
    identifiers for what they are completed with. -/
theorem renderBlock_eq {b b' : Block} (h : b.anonymous = b'.anonymous) (ids ids' : Supply)
    (data data' : Members) :
    Registry.builtin.renderBlock ids b data = Registry.builtin.renderBlock ids' b' data' := by
  rw [Registry.renderBlock, Registry.renderBlock, render_eq_writeAll, render_eq_writeAll,
    blockTokens_of_anonymous h ids ids']

/-! ## Documents -/

theorem isRow_of_anonymous {b b' : Block} (h : b.anonymous = b'.anonymous) : b.isRow = b'.isRow := by
  cases b <;> cases b' <;> first | rfl | cases h

/-- Sections of blocks that are written alike are alike. -/
theorem sectionsAfter_congr {write write' : Block → String}
    (hwrite : ∀ b b' : Block, b.anonymous = b'.anonymous → write b = write' b')
    (background : String) {blocks blocks' : List Block}
    (h : blocks.map Block.anonymous = blocks'.map Block.anonymous) (pending : String) :
    sectionsAfter write background pending blocks =
      sectionsAfter write' background pending blocks' := by
  induction blocks generalizing blocks' pending with
  | nil =>
    obtain rfl := List.map_eq_nil_iff.1 h.symm
    rfl
  | cons b blocks ih =>
    obtain ⟨b', rest, rfl, hb, hrest⟩ := List.map_eq_cons_iff.1 h.symm
    simp only [sectionsAfter, isRow_of_anonymous hb.symm, hwrite b b' hb.symm, ih hrest.symm]

namespace Setup

variable {s s' : Setup}

theorem document_eq (hs : s.registry = .builtin) (hs' : s'.registry = .builtin)
    {blocks blocks' : List Block} (h : blocks.map Block.anonymous = blocks'.map Block.anonymous)
    (settings : Settings) (preview : Option String) (data data' : Members) :
    s.document blocks settings preview data = s'.document blocks' settings preview data' := by
  have hsections :
      sections (fun b => Registry.builtin.renderBlock s.ids b data)
        settings.contentBackgroundColor blocks =
      sections (fun b => Registry.builtin.renderBlock s'.ids b data')
        settings.contentBackgroundColor blocks' :=
    sectionsAfter_congr (fun b b' hb => renderBlock_eq hb s.ids s'.ids data data') _ h ""
  simp only [document, hs, hs', hsections]

/-- **The document depends on layout and props alone.**  Blocks that differ in identifiers alone
    give the same document in the same settings, whatever the data is and whatever identifiers are
    minted; a block and its copies are written alike.  So a page is its document without any data,
    compiled, with the data put into what the compiler gives. -/
theorem markup_of_layout_and_props (hs : s.registry = .builtin) (hs' : s'.registry = .builtin)
    {blocks blocks' : List Block} (h : blocks.map Block.anonymous = blocks'.map Block.anonymous)
    (settings : Settings) (preview : Option String) (data data' : Members) :
    s.document blocks settings preview data = s'.document blocks' settings preview data' ∧
    (∀ (b b' : Block) (ids ids' : Supply), b.anonymous = b'.anonymous →
      s.registry.renderBlock ids b data = s'.registry.renderBlock ids' b' data') ∧
    (∀ (b : Block) (supply ids ids' : Supply),
      s.registry.renderBlock ids (b.duplicate.run supply).1 data =
        s'.registry.renderBlock ids' b data') ∧
    s.renderBlocks blocks settings data =
      (s.compiler (s.document blocks settings none [])).map
        (fun compiled => s.processor.run compiled data) ∧
    ∀ t : Template, s.render t data =
      (s.compiler (s.markup t [])).map fun compiled => s.processor.run compiled data := by
  refine ⟨document_eq hs hs' h settings preview data data', fun b b' ids ids' hb => ?_,
    fun b supply ids ids' => ?_, ?_, fun t => ?_⟩
  · rw [hs, hs']
    exact renderBlock_eq hb ids ids' data data'
  · rw [hs, hs']
    exact renderBlock_eq (b.anonymous_duplicate supply) ids ids' data data'
  · rw [renderBlocks, finish, document_eq hs hs rfl settings none data []]
  · rw [render, finish, markup, document_eq hs hs rfl _ _ data []]
    rfl

/-- Two rows with other identifiers throughout, other data and another supply. -/
theorem markup_of_layout_and_props_of_rows :
    let rowOf (row column inner : String) : List Block :=
      [.row row ⟨.oneColumn, [⟨column, "100%", [⟨inner, .text, [("content", .string "Hello")]⟩], none⟩],
        RowLayout.initialGap, true, .initial⟩]
    let setup (ids : Nat → String) : Setup :=
      { registry := .builtin, processor := ⟨[], .builtin⟩, compiler := fun s => .ok s,
        defaults := .initial, ids := ⟨ids, 0⟩ }
    (setup fun _ => "a").document (rowOf "r" "c" "t") .initial none [] =
      (setup fun _ => "b").document (rowOf "s" "d" "u") .initial none
        [("name", .string "Ann")] := by
  intro rowOf setup
  have hrows : (rowOf "r" "c" "t").map Block.anonymous = (rowOf "s" "d" "u").map Block.anonymous :=
    rfl
  have hbuiltin (ids : Nat → String) : (setup ids).registry = .builtin := rfl
  exact (markup_of_layout_and_props (hbuiltin _) (hbuiltin _) hrows .initial none []
    [("name", .string "Ann")]).1

end Setup

end Letterpress.Render
