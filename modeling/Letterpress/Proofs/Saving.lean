/-
  Saving and loading.

  * `Document.Storable`, `Template.Storable`: what holds of documents and templates that are read.
    Such a one is read as what was written (`Document.Storable.ofJson?_toJson`,
    `Template.Storable.ofJson?_toJson`).
  * `saving_is_lossless`: for documents and templates that are read, and for the document of an
    editing session after any run.
-/
import Letterpress.Proofs.Block.RoundTrip
import Letterpress.Proofs.Editor.Storable
import Letterpress.Template

namespace Letterpress

open Json (AllNumbers absent_forall optional_forall record?_record optional_map optional_text
  listOf?_map)
open Json.Number (Finite keptAsDouble_finite)

variable {v : Json}

/-! ## Documents -/

/-- A document of blocks that can be stored. -/
def Document.Storable (d : Document) : Prop := ∀ b ∈ d.blocks, b.Storable Finite

theorem Document.storable_of_ofJson? {d : Document} (h : ofJson? v = some d) (hv : v.IsFinite) :
    d.Storable := by
  simp only [ofJson?, Option.bind_eq_bind, Option.bind_eq_some_iff] at h
  obtain ⟨vs, hvs, h⟩ := h
  have hfields := hv.field hvs
  split at h
  · simp only [Option.bind_eq_some_iff] at h
    obtain ⟨version, -, blocks, hblocks, ⟨⟩⟩ := h
    simp only [List.forall_mem_cons] at hfields
    obtain ⟨-, hblocks', -⟩ := hfields
    refine absent_forall (P := fun bs => ∀ b ∈ bs, Block.Storable Finite b) hblocks
      (fun b hb => absurd hb List.not_mem_nil) fun w hw bs hbs => ?_
    exact Json.listOf?_forall hbs (hblocks' w hw) fun u hu b hb =>
      Block.storable_of_ofJson? keptAsDouble_finite hb hu
  · cases h

theorem Document.Storable.ofJson?_toJson {d : Document} (h : d.Storable) :
    Document.ofJson? d.toJson = some d := by
  have hblocks : Json.listOf? Block.ofJson? (.array (d.blocks.map Block.toJson)) =
      some d.blocks :=
    listOf?_map fun b hb => (h b hb).ofJson?_toJson
  rw [Document.ofJson?, Document.toJson, record?_record]
  · simp only [List.map_cons, List.map_nil, Option.bind_eq_bind, Option.bind_some, Json.absent,
      hblocks]
    rfl
  · rfl
  · decide

/-! ## Templates -/

/-- Settings with a width within its bound. -/
def PartialSettings.Storable (s : PartialSettings) : Prop := ∀ w ∈ s.contentWidth, w < widthBound

/-- A declared tag whose values, if there are any, are not `null`. -/
structure TagDefinition.Storable (d : TagDefinition) : Prop where
  default : ∀ v ∈ d.default, v ≠ .null
  example? : ∀ v ∈ d.example?, v ≠ .null

/-- A template of parts that can be stored. -/
structure Template.Storable (t : Template) : Prop where
  content : t.content.Storable
  settings : t.settings.Storable
  tags : ∀ d ∈ t.tags, d.Storable

theorem PartialSettings.storable_of_ofJson? {s : PartialSettings} (h : ofJson? v = some s) :
    s.Storable := by
  simp only [ofJson?, Option.bind_eq_bind, Option.bind_eq_some_iff] at h
  obtain ⟨vs, -, h⟩ := h
  split at h
  · simp only [Option.bind_eq_some_iff] at h
    obtain ⟨font, -, background, -, content, -, width, hwidth, ⟨⟩⟩ := h
    refine optional_forall hwidth fun w _ n _ hn => ?_
    unfold Json.natBelow? at hn
    split at hn
    · split at hn
      · cases hn
        omega
      · cases hn
    · cases hn
  · cases h

theorem PartialSettings.Storable.ofJson?_toJson {s : PartialSettings} (h : s.Storable) :
    PartialSettings.ofJson? s.toJson = some s := by
  have hwidth : Json.optional (Json.natBelow? widthBound)
      (s.contentWidth.map fun n : Nat => Json.int n) = some s.contentWidth := by
    refine optional_map fun w hw => ⟨by rintro ⟨⟩, ?_⟩
    have hlt := h w hw
    rw [Json.int, Json.natBelow?, if_pos ⟨Int.natCast_nonneg w, by omega⟩, Int.toNat_natCast]
  rw [PartialSettings.ofJson?, PartialSettings.toJson, record?_record]
  · simp only [List.map_cons, List.map_nil, Option.bind_eq_bind, Option.bind_some, optional_text,
      hwidth]
    rfl
  · rfl
  · decide

theorem TagType.ofJson?_name (t : TagType) : ofJson? (.string t.name) = some t := by
  cases t <;> rfl

theorem TagDefinition.storable_of_ofJson? {d : TagDefinition} (h : ofJson? v = some d) :
    d.Storable := by
  simp only [ofJson?, Option.bind_eq_bind, Option.bind_eq_some_iff] at h
  obtain ⟨vs, -, h⟩ := h
  have hany : ∀ {field : Option Json} {o : Option Json},
      Json.optional Json.any? field = some o → ∀ v ∈ o, v ≠ .null := by
    intro field o ho
    refine optional_forall ho fun w _ u hw hu => ?_
    cases hu
    exact hw
  split at h
  · simp only [Option.bind_eq_some_iff] at h
    obtain ⟨-, -, -, -, -, -, -, -, -, -, default, hdefault, shown, hshown, ⟨⟩⟩ := h
    exact ⟨hany hdefault, hany hshown⟩
  · cases h

theorem TagDefinition.Storable.ofJson?_toJson {d : TagDefinition} (h : d.Storable) :
    TagDefinition.ofJson? d.toJson = some d := by
  have hany : ∀ {o : Option Json}, (∀ v ∈ o, v ≠ .null) →
      Json.optional Json.any? o = some o := by
    intro o ho
    have hmap : Json.optional Json.any? (o.map id) = some o :=
      optional_map fun v hv => ⟨ho v hv, rfl⟩
    rwa [Option.map_id] at hmap
  rw [TagDefinition.ofJson?, TagDefinition.toJson, record?_record]
  · simp only [List.map_cons, List.map_nil, Option.bind_eq_bind, Option.bind_some, Json.required,
      Json.absent, TagType.ofJson?_name, hany h.default, hany h.example?]
    rfl
  · rfl
  · decide

theorem Template.storable_of_ofJson? {t : Template} (h : ofJson? v = some t) (hv : v.IsFinite) :
    t.Storable := by
  simp only [ofJson?, Option.bind_eq_bind, Option.bind_eq_some_iff] at h
  obtain ⟨vs, hvs, h⟩ := h
  have hfields := hv.field hvs
  split at h
  · simp only [Option.bind_eq_some_iff] at h
    obtain ⟨-, -, -, -, -, -, -, -, content, hcontent, settings, hsettings, -, -, -, -, tags,
      htags, ⟨⟩⟩ := h
    simp only [List.forall_mem_cons] at hfields
    obtain ⟨-, -, -, -, hcontent', -, -, -, htags', -⟩ := hfields
    constructor
    case content =>
      exact absent_forall (P := Document.Storable) hcontent
        (fun b hb => absurd hb List.not_mem_nil) fun w hw d hd =>
          Document.storable_of_ofJson? hd (hcontent' w hw)
    case settings =>
      exact absent_forall (P := PartialSettings.Storable) hsettings (by rintro w ⟨⟩)
        fun w _ s hs => PartialSettings.storable_of_ofJson? hs
    case tags =>
      exact absent_forall (P := fun ds => ∀ d ∈ ds, TagDefinition.Storable d) htags
        (fun d hd => absurd hd List.not_mem_nil) fun w hw ds hds =>
          Json.listOf?_forall hds (htags' w hw) fun u _ d hd => TagDefinition.storable_of_ofJson? hd
  · cases h

theorem Template.Storable.withSlug {t : Template} (h : t.Storable) : t.withSlug.Storable := by
  rw [Template.withSlug]
  split
  · exact ⟨h.content, h.settings, h.tags⟩
  · exact h

theorem Template.Storable.ofJson?_toJson {t : Template} (h : t.Storable) :
    Template.ofJson? t.toJson = some t := by
  have htags : Json.listOf? TagDefinition.ofJson? (.array (t.tags.map TagDefinition.toJson)) =
      some t.tags :=
    listOf?_map fun d hd => (h.tags d hd).ofJson?_toJson
  rw [Template.ofJson?, Template.toJson, record?_record]
  · simp only [List.map_cons, List.map_nil, Option.bind_eq_bind, Option.bind_some, Json.required,
      Json.absent, optional_text, h.content.ofJson?_toJson, h.settings.ofJson?_toJson, htags]
    rfl
  · rfl
  · decide

/-! ## Saving -/

/-- **Saving and loading is lossless**: a document or a template that was read is read again as what
    was written, and so is the document of an editing session after any run of operations with
    arguments from outside. -/
theorem saving_is_lossless (hv : v.IsFinite) :
    (∀ d, Document.ofJson? v = some d → Document.ofJson? d.toJson = some d) ∧
      (∀ t, Template.ofJson? v = some t →
        Template.ofJson? t.withSlug.toJson = some t.withSlug) ∧
      ∀ d, Document.ofJson? v = some d → ∀ settings supply,
        ∀ ops : List Operation, (∀ op ∈ ops, op.Given Json.IsFinite) →
          let e := ((Session.start d.blocks settings supply).after ops).editor
          ∃ d', Document.ofJson? e.toDocument.toJson = some d' ∧
            ∀ settings', (Editor.ofDocument d' settings').blocks = e.blocks := by
  refine ⟨fun d hd => ?_, fun t ht => ?_, fun d hd settings supply ops hops => ?_⟩
  · exact (Document.storable_of_ofJson? hd hv).ofJson?_toJson
  · exact (Template.storable_of_ofJson? ht hv).withSlug.ofJson?_toJson
  · have hstart := Session.Storable.start (Document.storable_of_ofJson? hd hv) settings supply
    have hafter := hstart.after keptAsDouble_finite hops
    have hdocument :
        ((Session.start d.blocks settings supply).after ops).editor.toDocument.Storable :=
      hafter.trees.live
    exact ⟨_, hdocument.ofJson?_toJson, fun _ => rfl⟩

/-- An integer is read as a double, and a style without a decision stays without it; a value may be
    both a document and a template. -/
theorem saving_is_lossless_of_row :
    let block := Json.object [("id", .string "b"), ("type", .string "quote")]
    let column := Json.object
      [("blocks", .array [block]), ("id", .string "c"), ("width", .string "100%")]
    let row := Json.object
      [("id", .string "r"),
       ("props", .object [("columns", .array [column]), ("gap", Json.int 7), ("style", .object [])]),
       ("type", .string "row")]
    let v := Json.object
      [("blocks", .array [row]), ("name", .string "My mail"),
       ("settings", .object [("contentWidth", Json.int 640)])]
    let c : Column := ⟨"c", "100%", [⟨"b", .custom "quote", []⟩], none⟩
    let style : RowStyle := ⟨none, none, none, none, none, none, none⟩
    let d : Document := ⟨"1.0", [.row "r" ⟨.twoEqual, [c], Float.ofInt 7, true, style⟩]⟩
    let settings : PartialSettings := ⟨none, none, none, some 640⟩
    let t : Template := ⟨"My mail", "", "", none, .ofBlocks [], settings, none, true, []⟩
    let ops : List Operation :=
      [.updateRowStyle "r" [("borderRadius", Json.int 4)], .duplicateInColumn "r" "c" "b"]
    let e := ((Session.start d.blocks .initial .tally).after ops).editor
    v.IsFinite ∧ Document.ofJson? v = some d ∧ Template.ofJson? v = some t ∧
      (∀ op ∈ ops, op.Given Json.IsFinite) ∧ t.withSlug.slug = "my-mail" ∧
      Document.ofJson? d.toJson = some d ∧
      Template.ofJson? t.withSlug.toJson = some t.withSlug ∧
      ∃ d', Document.ofJson? e.toDocument.toJson = some d' ∧
        ∀ settings', (Editor.ofDocument d' settings').blocks = e.blocks := by
  intro block column row v c style d settings t ops e
  have hv : v.IsFinite := by decide
  have hd : Document.ofJson? v = some d := by rfl
  have ht : Template.ofJson? v = some t := by rfl
  have hops : ∀ op ∈ ops, op.Given Json.IsFinite := by
    have hupdates : (Json.object [("borderRadius", Json.int 4)]).IsFinite := by decide
    simp only [ops, List.forall_mem_cons]
    exact ⟨hupdates, trivial, by simp⟩
  obtain ⟨hdocument, htemplate, hsession⟩ := saving_is_lossless hv
  exact ⟨hv, hd, ht, hops, by decide +kernel, hdocument d hd, htemplate t ht,
    hsession d hd .initial .tally ops hops⟩

end Letterpress
