/-
  The sections of a body.

  * A `Strip` is what has a section of its own: a row, or a run of content blocks between rows.
    `strips` cuts the blocks of a document into strips.
  * `flatMap_blocks_strips`: every block that is written stands in one column of one strip, and the
    order stays.
  * `sections_eq`: a body is made of the texts of its strips, one after the other; `renderBlock_row`
    says what the text of a row is.
-/
import Letterpress.Proofs.Block.RoundTrip
import Letterpress.Proofs.Editor.Relocation
import Letterpress.Proofs.Render.Independence

namespace Letterpress

/-! ## Rows as they are written -/

/-- The row as it is written: its props are read again. -/
def RowLayout.again? (l : RowLayout) : Option RowLayout := ofMembers? l.toMembers

/-- The content blocks that are written for a block: itself, or those in its columns. -/
def Block.written : Block → List ContentBlock
  | .content b => [b]
  | .row _ l => l.again?.toList.flatMap fun l => l.columns.flatMap Render.innerBlocks

theorem RowLayout.Storable.again?_eq {l : RowLayout} (h : l.Storable Json.Number.Finite) :
    l.again? = some l := by
  have hread : ofJson (.object l.toMembers) = .ok l := h.ofJson_toJson
  rw [again?, ofMembers?, hread]
  rfl

namespace Render

open Markup

/-! ## Strips -/

/-- A part of a body with a section of its own. -/
inductive Strip where
  /-- Content blocks that share the section. -/
  | run (blocks : List ContentBlock)
  | row (id : String) (layout : RowLayout)

namespace Strip

/-- The blocks that are written, column by column. -/
def columns : Strip → List (List ContentBlock)
  | run blocks => [blocks]
  | row _ l => l.again?.toList.flatMap fun l => l.columns.map innerBlocks

/-- The blocks that are written. -/
def blocks (s : Strip) : List ContentBlock := s.columns.flatten

/-- The markup of a strip; a run without markup has none. -/
def text (write : Block → String) (background : String) : Strip → String
  | run blocks => contentSection background (String.join (blocks.map fun b => write (.content b)))
  | row id l => write (.row id l)

end Strip

/-- The strips of blocks, where `pending` are the content blocks before them that still lack a
    section. -/
def stripsAfter (pending : List ContentBlock) : List Block → List Strip
  | [] => [.run pending]
  | .content b :: rest => stripsAfter (pending ++ [b]) rest
  | .row id l :: rest => .run pending :: .row id l :: stripsAfter [] rest

/-- The strips of blocks. -/
def strips (blocks : List Block) : List Strip := stripsAfter [] blocks

theorem blocks_run (bs : List ContentBlock) : (Strip.run bs).blocks = bs := List.flatten_singleton

theorem blocks_row (id : String) (l : RowLayout) :
    (Strip.row id l).blocks = (Block.row id l).written := by
  rw [Strip.blocks, Strip.columns, Block.written]
  cases l.again? with
  | none => rfl
  | some l => simp [List.flatMap_def]

theorem flatMap_blocks_stripsAfter (pending : List ContentBlock) (blocks : List Block) :
    (stripsAfter pending blocks).flatMap Strip.blocks =
      pending ++ blocks.flatMap Block.written := by
  induction blocks generalizing pending with
  | nil => rw [stripsAfter, List.flatMap_singleton, blocks_run, List.flatMap_nil, List.append_nil]
  | cons b blocks ih =>
    cases b with
    | content b => rw [stripsAfter, ih, List.append_assoc]; rfl
    | row id l =>
      rw [stripsAfter, List.flatMap_cons, List.flatMap_cons, blocks_run, blocks_row, ih]
      rfl

/-- **Every block that is written stands in one column of one strip**, and the order stays. -/
theorem flatMap_blocks_strips (blocks : List Block) :
    (strips blocks).flatMap Strip.blocks = blocks.flatMap Block.written :=
  flatMap_blocks_stripsAfter [] blocks

/-! ## Texts of strips -/

section

variable (write : Block → String) (background : String)

theorem sectionsAfter_eq (pending : List ContentBlock) (blocks : List Block) :
    sectionsAfter write background (String.join (pending.map fun b => write (.content b))) blocks =
      String.join ((stripsAfter pending blocks).map (Strip.text write background)) := by
  induction blocks generalizing pending with
  | nil => simp [sectionsAfter, stripsAfter, Strip.text]
  | cons b blocks ih =>
    cases b with
    | content b =>
      have hpending : String.join ((pending ++ [b]).map fun b => write (.content b)) =
          String.join (pending.map fun b => write (.content b)) ++ write (.content b) := by simp
      have hstep := ih (pending ++ [b])
      rw [hpending] at hstep
      exact hstep
    | row id l =>
      have hisRow : (Block.row id l).isRow = true := rfl
      have hrest := ih []
      rw [List.map_nil, String.join_nil] at hrest
      rw [sectionsAfter, if_pos hisRow, hrest, stripsAfter]
      simp [Strip.text, String.append_assoc]

/-- **A body is made of the texts of its strips**, in order, whatever writes the blocks. -/
theorem sections_eq (blocks : List Block) :
    sections write background blocks =
      String.join ((strips blocks).map (Strip.text write background)) :=
  sectionsAfter_eq write background [] blocks

end

/-- A row is written as it is read again, with its blocks as they are written alone, or not at
    all. -/
theorem renderBlock_row (ids : Supply) (data : Members) (id : String) (l : RowLayout) :
    Registry.builtin.renderBlock ids (.row id l) data =
      String.join (l.again?.toList.map (rowLayout fun kind props =>
        Registry.builtin.render ids kind props data)) := by
  have htokens : Registry.builtin.renderBlock ids (.row id l) data =
      writeAll ((RowLayout.ofMembers? (complete ids .row l.toMembers)).elim []
        (rowTokens (innerTokens ids))) := render_eq_writeAll ids .row l.toMembers data
  rw [htokens, complete_toMembers, RowLayout.again?]
  cases RowLayout.ofMembers? l.toMembers with
  | none => rfl
  | some l =>
    have hrow : rowLayout (fun kind props => Registry.builtin.render ids kind props data) l =
        writeAll (rowTokens (innerTokens ids) l) :=
      rowLayout_eq (fun _ props hkind => render_content ids hkind props data) l
    simp [hrow]

end Render

end Letterpress
