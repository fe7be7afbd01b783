/-
  Rows stand at the top level only.

  * `RowsOnTop`: no content block of a tree, at the top level or in a column, has the kind of a row.
    By their types, columns hold nothing but content blocks, so this bounds the depth of a tree.
  * `Session.rows_never_nest`: so it is in each tree of a run from blocks that are read.
-/
import Letterpress.Proofs.Editor.Storable

namespace Letterpress

/-- No content block has the kind of a row, or a kind with the name of it: what has that name is a
    row. -/
structure RowsOnTop (tree : List Block) : Prop where
  contents : ∀ c ∈ tree.flatMap Block.contents, c.kind ≠ .row ∧ c.kind.name ≠ "row"
  rows : ∀ b ∈ tree, b.kind.name = "row" → ∃ id l, b = .row id l

variable {p : Json.Number → Prop}

theorem ContentBlock.Storable.kind_ne_row {c : ContentBlock} (h : c.Storable p) :
    c.kind ≠ .row ∧ c.kind.name ≠ "row" := by
  refine ⟨fun heq => ?_, h.isNamed.name_ne_row h.notRow⟩
  have hrow := h.notRow
  rw [heq] at hrow
  cases hrow

theorem Block.Storable.contents {b : Block} (h : b.Storable p) :
    ∀ c ∈ b.contents, c.Storable p := by
  cases b with
  | content b =>
    intro c hc
    rw [List.mem_singleton.mp hc]
    exact h
  | row id l =>
    obtain ⟨hcolumns, -, -⟩ := h
    intro c hc
    obtain ⟨column, hcolumn, hc⟩ := List.mem_flatMap.mp hc
    exact (hcolumns column hcolumn).blocks c hc

/-- The kinds of blocks that can be stored decide what is a row. -/
theorem rowsOnTop_of_storable {tree : List Block} (h : ∀ b ∈ tree, b.Storable p) :
    RowsOnTop tree := by
  constructor
  · intro c hc
    obtain ⟨b, hb, hc⟩ := List.mem_flatMap.mp hc
    exact ((h b hb).contents c hc).kind_ne_row
  · intro b hb hname
    cases b with
    | content c =>
      have hc : c.Storable p := h _ hb
      exact absurd hname hc.kind_ne_row.2
    | row id l => exact ⟨id, l, rfl⟩

namespace Session

/-- **Rows never nest**: from blocks that are read, no run of operations with arguments from outside
    brings a row into a column, or a content block with the kind of a row anywhere, in the tree or in
    a snapshot. -/
theorem rows_never_nest {v : Json} {blocks : List Block}
    (hread : Json.listOf? Block.ofJson? v = some blocks) (settings : Settings) (supply : Supply)
    {ops : List Operation} (hops : ∀ op ∈ ops, op.Given fun _ => True) :
    ((start blocks settings supply).after ops).Everywhere RowsOnTop := by
  have hblocks : ∀ b ∈ blocks, b.Storable fun _ => True :=
    Json.listOf?_forall hread (Json.allNumbers_true v) fun w hw b hb =>
      Block.storable_of_ofJson? Json.Number.keptAsDouble_true hb hw
  have hall : Json.AllNumbers (fun _ => True) = fun _ => True := by
    funext v
    exact eq_true (Json.allNumbers_true v)
  have hafter := (Storable.start hblocks settings supply).after Json.Number.keptAsDouble_true
    (hall ▸ hops)
  exact hafter.trees.imp fun _ => rowsOnTop_of_storable

/-- A row is refused in a column wherever it comes from: as a new block, from the top level, from
    the palette, and among the columns that are set as props. -/
theorem rows_never_nest_of_attempts :
    let text := Json.object [("id", .string "t"), ("type", .string "text")]
    let column (blocks : List Json) := Json.object
      [("blocks", .array blocks), ("id", .string "c"), ("width", .string "")]
    let row := Json.object
      [("id", .string "r"), ("props", .object [("columns", .array [column [text]])]),
       ("type", .string "row")]
    let c : Column := ⟨"c", "", [⟨"t", .text, []⟩], none⟩
    let blocks : List Block :=
      [.content ⟨"t", .text, []⟩, .row "r" ⟨.twoEqual, [c], RowLayout.initialGap, true, .initial⟩]
    let ops : List Operation :=
      [.addToColumn "r" "c" (Kind.ofName "row") none, .moveIntoColumn "r" "r" "c" 0,
       .update "r" [("columns", .array [column [row]])], .startDrag (.palette (Kind.ofName "row")),
       .drop (.column "r" "c" 0), .paste [.content ⟨"t", .text, []⟩] false, .undo]
    Json.listOf? Block.ofJson? (.array [text, row]) = some blocks ∧
      (∀ op ∈ ops, op.Given fun _ => True) ∧
      ((start blocks .initial .tally).after ops).Everywhere RowsOnTop ∧
      (start blocks .initial .tally).answers ops =
        [.refused, .refused, .refused, .done, .refused, .done, .accepted] := by
  intro text column row c blocks ops
  have hread : Json.listOf? Block.ofJson? (.array [text, row]) = some blocks := by rfl
  have hpasted : Block.ofJson? text = some (.content ⟨"t", .text, []⟩) := by rfl
  have hops : ∀ op ∈ ops, op.Given fun _ => True := by
    simp only [ops, List.forall_mem_cons]
    refine ⟨⟨"row", rfl⟩, trivial, trivial, ?_, trivial, ?_, trivial, by simp⟩
    · rintro kind ⟨⟩
      exact ⟨"row", rfl⟩
    · intro b hb
      rw [List.mem_singleton.mp hb]
      exact ⟨text, trivial, hpasted⟩
  exact ⟨hread, hops, rows_never_nest hread .initial .tally hops, by decide +kernel⟩

end Session

end Letterpress
