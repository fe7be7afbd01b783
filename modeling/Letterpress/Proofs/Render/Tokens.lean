/-
  The tags and texts that blocks are written as.

  * `contentTokens` are the tokens of a block that is no row, by its complete props, `rowTokens`
    those of a row, and `blockTokens` those of any block.
  * `render_eq_writeAll`: a block is written as its tokens, and as nothing else.
-/
import Letterpress.Proofs.Decimal.Layout
import Letterpress.Proofs.Markup.Token
import Letterpress.Render.Registry

namespace Letterpress.Render

open Markup
open Padding (pixels)

/-! ## Tokens of content blocks -/

/-- A heading: an element of its level inside the text. -/
def headingTokens (props : Members) : List Token :=
  let level := headingLevel (Props.text? props "level")
  [.start "mj-text" (headingAttributes level props), .start level [],
   .text (Props.textOr props "content" ""), .stop level, .stop "mj-text"]

/-- The icon of a link. -/
def iconToken (style color : String) (link : Members) : Token :=
  .empty "mj-social-element" (socialElementAttributes style color link)

/-- A line of icons, if any link is shown. -/
def socialTokens (props : Members) : List Token :=
  let links := shownLinks props
  if links.isEmpty then []
  else
    let style := Props.textOr props "iconStyle" "filled"
    let color := Props.textOr props "iconColor" ""
    .start "mj-social" (socialAttributes props) ::
      links.map (iconToken style color) ++ [.stop "mj-social"]

/-- A line, or blank space. -/
def dividerTokens (props : Members) : List Token :=
  if Props.textOr props "style" "solid" = "none" then
    [.empty "mj-spacer" [("height", pixels (blankHeight props))]]
  else [.empty "mj-divider" (dividerAttributes props)]

/-- The tokens of a block that is no row, by its complete props. -/
def contentTokens (kind : Kind) (props : Members) : List Token :=
  match kind with
  | .text =>
    [.start "mj-text" (textAttributes props), .raw (sanitize (Props.textOr props "content" "")),
     .stop "mj-text"]
  | .heading => headingTokens props
  | .image =>
    (Props.nonEmpty? props "src").elim [] fun src => [.empty "mj-image" (imageAttributes src props)]
  | .button =>
    [.start "mj-button" (buttonAttributes props), .text (Props.textOr props "text" "Click Here"),
     .stop "mj-button"]
  | .divider => dividerTokens props
  | .spacer => [.empty "mj-spacer" (spacerAttributes props)]
  | .html => [.raw (html props)]
  | .video =>
    (thumbnail? props).elim [] fun thumbnail =>
      [.empty "mj-image" (videoAttributes thumbnail props)]
  | .social => socialTokens props
  | .row | .custom _ => []

/-! ## Tokens of rows -/

/-- The look of a column. -/
def columnStyle (c : Column) : ColumnStyle := c.style.getD .plain

/-- The blocks of a column that are written. -/
def innerBlocks (c : Column) : List ContentBlock := c.blocks.filter fun b => !b.kind.isRow

section Rows

variable (child : Kind → Members → List Token)

/-- A column, where the blocks inside are made of the tokens that `child` gives. -/
def columnTokens (gap : Float) (total index : Nat) (c : Column) : List Token :=
  .start "mj-column" (columnAttributes c.width (columnStyle c) gap index total) ::
    (innerBlocks c).flatMap (fun b => child b.kind b.props) ++ [.stop "mj-column"]

/-- A row. -/
def rowTokens (l : RowLayout) : List Token :=
  let total := l.columns.length
  .start "mj-section" (sectionAttributes l.style l.stackOnMobile) ::
    l.columns.zipIdx.flatMap (fun (c, index) => columnTokens child l.gap total index c) ++
    [.stop "mj-section"]

end Rows

/-! ## Tokens of blocks -/

/-- The props of a block, set over those that a block of the kind starts with. -/
def complete (ids : Supply) (kind : Kind) (props : Members) : Members :=
  (((defaultProps kind).run ids).1).extend props

/-- The tokens of a block inside a row. -/
def innerTokens (ids : Supply) (kind : Kind) (props : Members) : List Token :=
  contentTokens kind (complete ids kind props)

/-- The tokens of a block. -/
def blockTokens (ids : Supply) (kind : Kind) (props : Members) : List Token :=
  if kind.isRow then
    (RowLayout.ofMembers? (complete ids kind props)).elim [] (rowTokens (innerTokens ids))
  else innerTokens ids kind props

/-! ## Writing -/

theorem toList_writeAll (ts : List Token) : (writeAll ts).toList = ts.flatMap Token.write :=
  String.toList_ofList

theorem emptyElement_eq (name : String) (as : Attributes) :
    emptyElement name as = writeAll [.empty name as] := by
  rw [← String.toList_inj]
  simp [emptyElement, toList_writeAll, Token.write]

theorem element_eq (name : String) (as : Attributes) (ts : List Token) :
    element name as (writeAll ts) = writeAll (.start name as :: ts ++ [.stop name]) := by
  rw [← String.toList_inj]
  simp [element, toList_writeAll, Token.write]

theorem element_text_eq (name : String) (as : Attributes) (s : String) :
    element name as (String.ofList (escapeText s.toList)) =
      writeAll [.start name as, .text s, .stop name] := by
  have htext : String.ofList (escapeText s.toList) = writeAll [.text s] := by
    simp [writeAll, Token.write]
  rw [htext, element_eq]
  rfl

theorem join_writeAll {α : Type} (f : α → List Token) (xs : List α) :
    String.join (xs.map fun x => writeAll (f x)) = writeAll (xs.flatMap f) := by
  rw [← String.toList_inj]
  simp [List.flatMap_map, toList_writeAll, List.flatMap_assoc]

/-! ## Lengths -/

theorem escapeAttribute_of_isNumberChar {s : List Char}
    (h : ∀ c ∈ s, Decimal.isNumberChar c = true) : escapeAttribute s = s := by
  induction s with
  | nil => rfl
  | cons c s ih =>
    obtain ⟨hc, hs⟩ := List.forall_mem_cons.1 h
    have hplain : escapeAttributeChar c = [c] := by
      have hne : ∀ mark, Decimal.isNumberChar mark = false → c ≠ mark := by
        rintro mark hmark rfl
        rw [hc] at hmark
        cases hmark
      have hand : c ≠ '&' := hne '&' (by decide)
      have hless : c ≠ '<' := hne '<' (by decide)
      have hmore : c ≠ '>' := hne '>' (by decide)
      have hquote : c ≠ '"' := hne '"' (by decide)
      rw [escapeAttributeChar, if_neg hand, if_neg hless, if_neg hmore, if_neg hquote]
    rw [escapeAttribute, List.flatMap_cons, hplain]
    exact congrArg (c :: ·) (ih hs)

/-- A length needs no references. -/
theorem escapeAttribute_pixels (x : Float) :
    escapeAttribute (pixels x).toList = (pixels x).toList := by
  refine escapeAttribute_of_isNumberChar ?_
  rw [pixels, String.toList_append, List.forall_mem_append]
  exact ⟨Decimal.Layout.isNumberChar_render, List.all_eq_true.1 (by decide)⟩

theorem pixels_ne_empty (x : Float) : pixels x ≠ "" := by
  intro h
  have hlist := congrArg String.toList h
  simp [pixels] at hlist

/-- The height of blank space, though it is written without care, stands there as any value. -/
theorem blank_eq (x : Float) :
    "<mj-spacer height=\"" ++ pixels x ++ "\" />" =
      writeAll [.empty "mj-spacer" [("height", pixels x)]] := by
  rw [← String.toList_inj]
  simp [toList_writeAll, Token.write, Attributes.text, Attributes.written, Attributes.attributeText,
    escapeAttribute_pixels, pixels_ne_empty]

/-! ## Blocks -/

theorem icons_eq (style color : String) (links : List Members) :
    String.join (links.map (socialElement style color)) =
      writeAll (links.map (iconToken style color)) := by
  calc String.join (links.map (socialElement style color))
      = String.join (links.map fun link => writeAll [iconToken style color link]) :=
        congrArg String.join (List.map_congr_left fun link _ => emptyElement_eq _ _)
    _ = writeAll (links.flatMap fun link => [iconToken style color link]) := join_writeAll _ _
    _ = writeAll (links.map (iconToken style color)) := by rw [List.map_eq_flatMap]

theorem social_eq (props : Members) : social props = writeAll (socialTokens props) := by
  rw [social, socialTokens]
  dsimp only
  split
  · rfl
  · rw [icons_eq, element_eq]

theorem divider_eq (props : Members) : divider props = writeAll (dividerTokens props) := by
  rw [divider, dividerTokens]
  split
  · exact blank_eq _
  · exact emptyElement_eq _ _

theorem text_eq (props : Members) : text props = writeAll (contentTokens .text props) := by
  have hraw : sanitize (Props.textOr props "content" "") =
      writeAll [.raw (sanitize (Props.textOr props "content" ""))] := by
    simp [writeAll, Token.write]
  rw [text, hraw, element_eq]
  rfl

theorem heading_eq (props : Members) : heading props = writeAll (headingTokens props) := by
  rw [heading, headingTokens, element_text_eq, element_eq]
  rfl

theorem image_eq (props : Members) : image props = writeAll (contentTokens .image props) := by
  rw [image, contentTokens]
  cases Props.nonEmpty? props "src" with
  | none => rfl
  | some src => exact emptyElement_eq _ _

theorem video_eq (props : Members) : video props = writeAll (contentTokens .video props) := by
  rw [video, contentTokens]
  cases thumbnail? props with
  | none => rfl
  | some thumbnail => exact emptyElement_eq _ _

/-- A block that is no row is written as its tokens. -/
theorem write_content {kind : Kind} {r : Renderer} (hr : Renderer.builtin? kind = some r)
    (hkind : kind.isRow = false) (child : ChildRenderer) (props data : Members) :
    r.write child props data = writeAll (contentTokens kind props) := by
  cases kind with
  | row => cases hkind
  | custom name => cases hr
  | text => cases hr; exact text_eq props
  | heading => cases hr; exact heading_eq props
  | image => cases hr; exact image_eq props
  | button => cases hr; exact element_text_eq _ _ _
  | divider => cases hr; exact divider_eq props
  | spacer => cases hr; exact emptyElement_eq _ _
  | html => cases hr; simp [Renderer.ofProps, contentTokens, writeAll, Token.write]
  | video => cases hr; exact video_eq props
  | social => cases hr; exact social_eq props

theorem renderer?_builtin (kind : Kind) :
    Registry.builtin.renderer? kind = Renderer.builtin? kind := by
  cases kind <;> rfl

theorem defaults_builtin? {kind : Kind} {r : Renderer} (hr : Renderer.builtin? kind = some r) :
    r.defaults = defaultProps kind := by
  cases kind <;> cases hr <;> rfl

/-- A block inside a row is written as its tokens. -/
theorem renderTo_content (ids : Supply) (data : Members) (depth : Nat) {kind : Kind}
    (hkind : kind.isRow = false) (props : Members) :
    Registry.builtin.renderTo ids data (depth + 1) kind props =
      writeAll (innerTokens ids kind props) := by
  rw [Registry.renderTo, renderer?_builtin]
  cases hr : Renderer.builtin? kind with
  | none =>
    cases kind with
    | custom name => rfl
    | _ => cases hr
  | some r => exact (write_content hr hkind _ _ _).trans (by rw [defaults_builtin? hr]; rfl)

/-- A row is written as its tokens, if that holds for the blocks inside. -/
theorem rowLayout_eq {write : Kind → Members → String} {child : Kind → Members → List Token}
    (h : ∀ kind props, kind.isRow = false → write kind props = writeAll (child kind props))
    (l : RowLayout) : rowLayout write l = writeAll (rowTokens child l) := by
  have hcolumn (index : Nat) (c : Column) : column write l.gap l.columns.length index c =
      writeAll (columnTokens child l.gap l.columns.length index c) := by
    rw [column, columnTokens, ← element_eq, ← join_writeAll]
    refine congrArg (element _ _) (congrArg String.join (List.map_congr_left fun b hb => ?_))
    exact h b.kind b.props (by simpa using (List.mem_filter.1 hb).2)
  rw [rowLayout, rowTokens, ← element_eq, ← join_writeAll, List.mapIdx_eq_zipIdx_map]
  refine congrArg (element _ _) (congrArg String.join (List.map_congr_left fun (c, index) _ => ?_))
  exact hcolumn index c

/-- A row with blocks of the built-in kinds is written as its tokens. -/
theorem rowLayout_builtin (ids : Supply) (data : Members) (depth : Nat) (l : RowLayout) :
    rowLayout (Registry.builtin.renderTo ids data (depth + 1)) l =
      writeAll (rowTokens (innerTokens ids) l) :=
  rowLayout_eq (fun _ props hkind => renderTo_content ids data depth hkind props) l

/-- A row is written with the blocks inside it, which have none inside them. -/
theorem render_row (ids : Supply) (props data : Members) :
    Registry.builtin.render ids .row props data =
      row (Registry.builtin.renderTo ids data 1) (complete ids .row props) := by
  have hdepth : Registry.builtin.render ids .row props data =
      row (Registry.builtin.renderTo ids data Json.maxDepth) (complete ids .row props) := rfl
  have hlevels : Json.maxDepth = 126 + 1 := rfl
  rw [hdepth, hlevels, row, row]
  cases RowLayout.ofMembers? (complete ids .row props) with
  | none => rfl
  | some l => exact (rowLayout_builtin ids data 126 l).trans (rowLayout_builtin ids data 0 l).symm

theorem render_content (ids : Supply) {kind : Kind} (hkind : kind.isRow = false)
    (props data : Members) : Registry.builtin.render ids kind props data =
      writeAll (innerTokens ids kind props) :=
  renderTo_content ids data Json.maxDepth hkind props

/-- **A block is written as its tokens**, and as nothing else. -/
theorem render_eq_writeAll (ids : Supply) (kind : Kind) (props data : Members) :
    Registry.builtin.render ids kind props data = writeAll (blockTokens ids kind props) := by
  rw [blockTokens]
  split
  · rename_i hkind
    obtain rfl := eq_of_beq hkind
    rw [render_row, row]
    cases RowLayout.ofMembers? (complete ids .row props) with
    | none => rfl
    | some l => exact rowLayout_builtin ids data 0 l
  · rename_i hkind
    exact render_content ids (by simpa using hkind) props data

end Letterpress.Render
