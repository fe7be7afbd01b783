/-
  The body of a document with any renderers.

  * `Setup.body` is the body, `document_eq_page` puts it into its document.
  * `Cuts blocks ss`: the strips `ss` are the blocks, in order, and no two runs of content blocks
    stand side by side; `cuts_strips` says that there are such strips for all blocks.
  * `sections_append_row`: a row divides a body into two, and all else follows from that.
  * `body_of_cuts`: **a body is made of its strips**: of the maximal runs of content blocks, each in
    a section unless it writes nothing, and of the rows as they are.
-/
import Letterpress.Proofs.Render.Sections
import Mathlib.Data.List.Chain

namespace Letterpress.Render

/-- The sections of a body. -/
def Setup.body (s : Setup) (blocks : List Block) (settings : Settings) (data : Members) : String :=
  sections (fun b => s.registry.renderBlock s.ids b data) settings.contentBackgroundColor blocks

theorem Setup.document_eq_page (s : Setup) (blocks : List Block) (settings : Settings)
    (preview : Option String) (data : Members) :
    s.document blocks settings preview data =
      page (s.body blocks settings data) settings preview := rfl

/-! ## Cutting at rows -/

namespace Strip

/-- The strip is a row. -/
def isRow : Strip → Bool
  | run _ => false
  | row _ _ => true

/-- The blocks of the strip. -/
def source : Strip → List Block
  | run blocks => blocks.map .content
  | row id l => [.row id l]

end Strip

/-- The strips are the blocks, none lost, repeated or moved, and their runs are maximal: one of two
    neighbours is a row. -/
structure Cuts (blocks : List Block) (ss : List Strip) : Prop where
  whole : ss.flatMap Strip.source = blocks
  maximal : ss.IsChain fun s s' => s.isRow = true ∨ s'.isRow = true

theorem cuts_stripsAfter (pending : List ContentBlock) (blocks : List Block) :
    Cuts (pending.map .content ++ blocks) (stripsAfter pending blocks) := by
  induction blocks generalizing pending with
  | nil => exact ⟨by simp [stripsAfter, Strip.source], .singleton _⟩
  | cons b blocks ih =>
    cases b with
    | content b => simpa [stripsAfter] using ih (pending ++ [b])
    | row id l =>
      obtain ⟨hwhole, hmaximal⟩ := ih []
      refine ⟨by simpa [stripsAfter, Strip.source] using hwhole, ?_⟩
      exact .cons_cons (.inr rfl) (List.isChain_cons.2 ⟨fun _ _ => .inl rfl, hmaximal⟩)

/-- **Every list of blocks can be cut.** -/
theorem cuts_strips (blocks : List Block) : Cuts blocks (strips blocks) :=
  cuts_stripsAfter [] blocks

/-! ## Sections of parts -/

section

variable (write : Block → String) (background : String)

theorem sectionsAfter_append_row (pending : String) (xs ys : List Block) {r : Block}
    (hr : r.isRow = true) :
    sectionsAfter write background pending (xs ++ r :: ys) =
      sectionsAfter write background pending xs ++ write r ++ sections write background ys := by
  induction xs generalizing pending with
  | nil => simp only [List.nil_append, sectionsAfter, hr, if_true, sections]
  | cons x xs ih =>
    rw [List.cons_append, sectionsAfter, sectionsAfter]
    split
    · simp only [ih, String.append_assoc]
    · exact ih _

/-- **A row divides a body**: it is written as it is, and what stands before it and behind it are
    two bodies. -/
theorem sections_append_row (xs ys : List Block) {r : Block} (hr : r.isRow = true) :
    sections write background (xs ++ r :: ys) =
      sections write background xs ++ write r ++ sections write background ys :=
  sectionsAfter_append_row write background "" xs ys hr

theorem sections_nil : sections write background [] = "" := rfl

theorem sections_cons_row (ys : List Block) {r : Block} (hr : r.isRow = true) :
    sections write background (r :: ys) = write r ++ sections write background ys := by
  have hdivided := sections_append_row write background [] ys hr
  rwa [List.nil_append, sections_nil, String.empty_append] at hdivided

theorem sectionsAfter_contents (pending : String) (bs : List ContentBlock) :
    sectionsAfter write background pending (bs.map .content) =
      contentSection background (pending ++ String.join (bs.map fun b => write (.content b))) := by
  induction bs generalizing pending with
  | nil => simp [sectionsAfter]
  | cons b bs ih =>
    have hrow : (Block.content b).isRow = false := rfl
    rw [List.map_cons, sectionsAfter, hrow, if_neg Bool.false_ne_true, ih, List.map_cons,
      String.join_cons, String.append_assoc]

/-- Content blocks alone share one section. -/
theorem sections_contents (bs : List ContentBlock) :
    sections write background (bs.map .content) =
      contentSection background (String.join (bs.map fun b => write (.content b))) := by
  rw [sections, sectionsAfter_contents, String.empty_append]

/-- A strip stands alone, unless it is a run and a content block follows. -/
theorem sections_source_append (s : Strip) {rest : List Block}
    (h : s.isRow = true ∨ ∀ r ∈ rest.head?, r.isRow = true) :
    sections write background (s.source ++ rest) =
      s.text write background ++ sections write background rest := by
  cases s with
  | row id l => exact sections_cons_row write background rest rfl
  | run bs =>
    cases rest with
    | nil =>
      rw [List.append_nil, sections_nil, String.append_empty]
      exact sections_contents write background bs
    | cons r rest =>
      have hr : r.isRow = true := h.resolve_left Bool.false_ne_true r rfl
      rw [sections_append_row write background _ rest hr, sections_cons_row write background rest hr,
        String.append_assoc]
      exact congrArg (· ++ _) (sections_contents write background bs)

/-- **A body is made of its strips**, in whatever way it is cut. -/
theorem sections_of_cuts {blocks : List Block} {ss : List Strip} (h : Cuts blocks ss) :
    sections write background blocks = String.join (ss.map (Strip.text write background)) := by
  obtain ⟨rfl, hmaximal⟩ := h
  induction ss with
  | nil => rfl
  | cons s ss ih =>
    obtain ⟨hnext, hrest⟩ := List.isChain_cons.1 hmaximal
    have hhead : s.isRow = true ∨ ∀ r ∈ (ss.flatMap Strip.source).head?, r.isRow = true := by
      cases ss with
      | nil => simp
      | cons s' ss =>
        refine (hnext s' List.head?_cons).imp id fun hs' => ?_
        cases s' with
        | run bs => exact absurd hs' Bool.false_ne_true
        | row id l => simp [Strip.source, Block.isRow, Block.row?]
    rw [List.flatMap_cons, sections_source_append write background s hhead, ih hrest, List.map_cons,
      String.join_cons]

theorem join_eq_empty_iff {texts : List String} : String.join texts = "" ↔ ∀ t ∈ texts, t = "" := by
  induction texts with
  | nil => simp
  | cons t texts ih => rw [String.join_cons, String.append_eq_empty_iff, ih, List.forall_mem_cons]

/-- A run in which nothing is written has no section. -/
theorem text_run (bs : List ContentBlock) :
    (Strip.run bs).text write background =
      if ∀ b ∈ bs, write (.content b) = "" then ""
      else "<mj-section background-color=\"" ++ background ++ "\" padding=\"0\"><mj-column>" ++
        String.join (bs.map fun b => write (.content b)) ++ "</mj-column></mj-section>" := by
  have hiff : (String.join (bs.map fun b => write (.content b))).isEmpty = true ↔
      ∀ b ∈ bs, write (.content b) = "" := by
    rw [String.isEmpty_iff, join_eq_empty_iff, List.forall_mem_map]
  rw [Strip.text, contentSection]
  exact if_congr hiff rfl rfl

end

/-- **A body is made of its strips.**  The body of a document is cut into its rows and the maximal
    runs of content blocks between them, in whatever way; each run is the markup of its blocks in
    one section, or nothing if they write nothing, and each row is its own markup.  So a row divides
    a body into two. -/
theorem body_of_cuts (s : Setup) (blocks : List Block) (settings : Settings) (data : Members) :
    let write (b : Block) : String := s.registry.renderBlock s.ids b data
    let background := settings.contentBackgroundColor
    (∀ preview, s.document blocks settings preview data =
      page (s.body blocks settings data) settings preview) ∧
    Cuts blocks (strips blocks) ∧
    (∀ ss, Cuts blocks ss →
      s.body blocks settings data = String.join (ss.map (Strip.text write background))) ∧
    (∀ bs, (Strip.run bs).text write background =
      if ∀ b ∈ bs, write (.content b) = "" then ""
      else "<mj-section background-color=\"" ++ background ++ "\" padding=\"0\"><mj-column>" ++
        String.join (bs.map fun b => write (.content b)) ++ "</mj-column></mj-section>") ∧
    (∀ id l, (Strip.row id l).text write background = write (.row id l)) ∧
    ∀ xs ys r, r.isRow = true → s.body (xs ++ r :: ys) settings data =
      s.body xs settings data ++ write r ++ s.body ys settings data := by
  intro write background
  have hbody (bs : List Block) : s.body bs settings data = sections write background bs := rfl
  refine ⟨fun preview => s.document_eq_page blocks settings preview data, cuts_strips blocks,
    fun ss h => ?_, text_run write background, fun _ _ => rfl, fun xs ys r hr => ?_⟩
  · rw [hbody, sections_of_cuts write background h]
  · rw [hbody, hbody, hbody, sections_append_row write background xs ys hr]

end Letterpress.Render
