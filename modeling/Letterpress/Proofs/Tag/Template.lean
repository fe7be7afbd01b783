/-
  The language of templates.

  A template is a list of items: literals, tags `{{key|pipe|…}}` and conditional regions whose
  bodies are lists of literals and tags.  The forms carry what makes them readable, so that every
  list of items is a template.

  * `templateText` writes a template, `Item.meaning` is what an item stands for.
  * `selectBranches_itemsText`: deciding the regions of a written template leaves the written form
    of the parts that are shown.
  * `replaceTags_partsText`: replacing the tags of written parts gives their meanings.
  * `run_templateText`: **a written template is replaced by the meanings of its items**, in their
    order.
  * `get?_merged` says what the tags are resolved with: the data, and the globals that it does not
    define.
-/
import Letterpress.Proofs.Tag.Writing
import Letterpress.Tag.Processor

namespace Letterpress

/-! ## What tags are resolved with -/

/-- The value that a global tag has when it is asked for. -/
def GlobalTag.present (t : GlobalTag) : Json := t.value.next.1

/-- The data comes first; a global tag stands in for what it does not define. -/
theorem Globals.get?_merged (gs : Globals) (data : Members) (key : String) :
    Dict.get? (gs.merged data) key =
      (Dict.get? data key).or ((Dict.get? gs key).map GlobalTag.present) := by
  induction gs with
  | nil => simp [Globals.merged, Globals.supplement, Dict.get?]
  | cons g gs ih =>
    obtain ⟨k, tag⟩ := g
    rw [Globals.merged] at ih
    simp only [Globals.merged, Globals.supplement, Dict.get?]
    by_cases hk : k = key
    · subst hk
      rw [if_pos rfl]
      by_cases hd : Dict.has data k = true
      · rw [if_pos hd, ih]
        obtain ⟨v, hv⟩ := Option.isSome_iff_exists.1 hd
        rw [hv, Option.some_or, Option.some_or]
      · rw [if_neg hd]
        have hnone : Dict.get? data k = none := by simpa [Dict.has] using hd
        rw [hnone, Option.none_or, Option.map_some]
        exact (Dict.get?_insert ..).trans (if_pos rfl)
    · rw [if_neg hk]
      split
      · exact ih
      · exact ((Dict.get?_insert ..).trans (if_neg (Ne.symm hk))).trans ih

namespace Tag

open Text

/-! ## Forms -/

/-- A text that opens no tag, whatever follows it. -/
structure Literal where
  text : String
  closed : ¬ opening <:+: text.toList
  ended : text.toList.getLast? ≠ some '{'

/-- A tag by its key and its pipes. -/
structure TagForm where
  key : String
  isKey : IsKey key.toList
  pipes : List Pipe
  writable : ∀ p ∈ pipes, p.Writable

/-- The tag as it is found in a text. -/
def TagForm.tag (t : TagForm) : Tag := ⟨t.key, String.ofList (pipesText t.pipes)⟩

/-- A literal or a tag. -/
inductive Part where
  | literal (l : Literal)
  | tag (t : TagForm)

/-- The part as it is written. -/
def Part.text : Part → List Char
  | .literal l => l.text.toList
  | .tag t => t.tag.text

/-- The parts as they are written, one after the other. -/
def partsText (ps : List Part) : List Char := ps.flatMap Part.text

/-- What a region shows: literals and tags, none of them the bare `{{else}}`. -/
structure Body where
  parts : List Part
  noElse : ∀ p ∈ parts, p.text ≠ Conditional.elseMarker

/-- A conditional region by its condition and its bodies. -/
structure RegionForm where
  polarity : Polarity
  gap : String
  gap_ne : gap.toList ≠ []
  blank : ∀ c ∈ gap.toList, isBlank c = true
  condition : String
  isKey : IsKey condition.toList
  first : Body
  alternative : Option Body

/-- The region as it is found in a text. -/
def RegionForm.conditional (r : RegionForm) : Conditional where
  polarity := r.polarity
  gap := r.gap
  condition := r.condition
  first := String.ofList (partsText r.first.parts)
  alternative := r.alternative.map fun b => String.ofList (partsText b.parts)

/-- An item of a template. -/
inductive Item where
  | part (p : Part)
  | region (r : RegionForm)

/-- The item as it is written. -/
def Item.text : Item → List Char
  | .part p => p.text
  | .region r => r.conditional.text

/-- The template as it is written. -/
def templateText (items : List Item) : String := String.ofList (items.flatMap Item.text)

/-! ## Meanings -/

section
variable (formatters : Formatters) (data : Members)

/-- A literal stands for itself, a tag for the value of its key after its pipes. -/
def Part.meaning : Part → List Char
  | .literal l => l.text.toList
  | .tag t => (Processor.applyPipes formatters (Json.resolve t.key data) t.pipes).toList

/-- The parts that an item shows: a region those of the body that its condition selects, where a
    missing alternative is empty. -/
def Item.shown : Item → List Part
  | .part p => [p]
  | .region r =>
    let holds := Json.isTruthy (Json.resolve r.condition data)
    let alternative := r.alternative.elim [] Body.parts
    match r.polarity with
    | .whenTrue => if holds then r.first.parts else alternative
    | .whenFalse => if holds then alternative else r.first.parts

/-- An item stands for the meanings of the parts that it shows. -/
def Item.meaning (i : Item) : List Char := (i.shown data).flatMap (Part.meaning formatters data)

end

/-! ## Tags of the language -/

namespace TagForm
variable (t : TagForm)

theorem printable : ∀ p ∈ t.pipes, p.Printable := fun p hp => (t.writable p hp).printable

theorem canonical : t.tag.Canonical := canonical_ofPipes t.printable t.isKey

theorem pipes_tag : t.tag.pipes = t.pipes := pipes_ofPipes t.printable

theorem text_eq_marker : t.tag.text = marker (t.key.toList ++ pipesText t.pipes) := by
  simp [Tag.text, tag, marker]

theorem brace_notMem : '{' ∉ t.key.toList ++ pipesText t.pipes := by
  rw [List.mem_append, not_or]
  refine ⟨t.isKey.notMem (by decide), fun hc => ?_⟩
  obtain ⟨p, hp, hc⟩ := List.mem_flatMap.1 hc
  rcases List.mem_cons.1 hc with hc | hc
  · exact absurd hc (by decide)
  · exact (t.writable p hp).brace_notMem_text hc

/-- A tag is no marker whose name starts with another character than those of keys. -/
theorem afterStart?_text {c : Char} (hc : isKeyChar c = false) (pat rest : List Char) :
    afterStart? (opening ++ c :: pat) (t.tag.text ++ rest) = none := by
  refine afterStart?_eq_none fun h => ?_
  obtain ⟨x, xs, hx⟩ := List.exists_cons_of_ne_nil t.isKey.nonempty
  have hk : isKeyChar x = true := t.isKey.chars x (hx ▸ List.mem_cons_self)
  have htext : t.tag.text ++ rest =
      opening ++ x :: (xs ++ (pipesText t.pipes ++ closing ++ rest)) := by
    simp [Tag.text, tag, hx]
  rw [htext, List.prefix_append_right_inj] at h
  obtain ⟨rfl, -⟩ := List.cons_prefix_cons.1 h
  rw [hc] at hk
  exact absurd hk (by decide)

/-- Only the bare `{{else}}` starts like the marker. -/
theorem afterStart?_elseMarker (h : t.tag.text ≠ Conditional.elseMarker) (rest : List Char) :
    afterStart? Conditional.elseMarker (t.tag.text ++ rest) = none := by
  rw [Option.eq_none_iff_forall_not_mem]
  intro r hr
  refine h ?_
  -- the marker is a tag too, and a text is read as one tag only
  have helse : Canonical ⟨"else", ""⟩ :=
    ⟨⟨by decide, List.all_eq_true.1 (by decide)⟩, Or.inl (by decide)⟩
  have htext : Conditional.elseMarker = Tag.text ⟨"else", ""⟩ := by decide
  have hread := read?_text t.canonical rest
  rw [afterStart?_eq_some_iff.1 hr, htext, read?_text helse r, Option.some.injEq,
    Prod.mk.injEq] at hread
  rw [← hread.1, htext]

/-- No region starts at a tag. -/
theorem conditional_read?_text (rest : List Char) :
    Conditional.read? (t.tag.text ++ rest) = none := by
  have hnone (p : Polarity) : Conditional.readAs? p (t.tag.text ++ rest) = none := by
    have h : afterStart? (Conditional.openingOf p) (t.tag.text ++ rest) = none :=
      t.afterStart?_text (by decide) _ rest
    simp only [Conditional.readAs?, h, Option.bind_eq_bind, Option.bind_none]
  rw [Conditional.read?, hnone, Option.orElse_none, hnone]

end TagForm

/-! ## Where nothing is found -/

/-- A reader finds nothing in written parts if it finds nothing at their tags. -/
theorem unread_partsText {β : Type} {read? : List Char → Option β} (hr : ReadsBraces read?)
    {ps : List Part} (h : ∀ t, .tag t ∈ ps → ∀ rest, read? (t.tag.text ++ rest) = none)
    (rest : List Char) : Unread read? (partsText ps) rest := by
  induction ps with
  | nil => trivial
  | cons p ps ih =>
    have hps : Unread read? (partsText ps) rest :=
      ih fun t ht => h t (List.mem_cons_of_mem p ht)
    rw [partsText, List.flatMap_cons]
    refine unread_append.2 ⟨?_, hps⟩
    cases p with
    | literal l => exact unread_literal hr l.closed l.ended _
    | tag t =>
      have ht := h t List.mem_cons_self (List.flatMap Part.text ps ++ rest)
      simp only [Part.text]
      rw [t.text_eq_marker] at ht ⊢
      exact unread_marker hr t.brace_notMem ht

theorem unread_closingOf (p : Polarity) (ps : List Part) (rest : List Char) :
    Unread (afterStart? (Conditional.closingOf p)) (partsText ps) rest := by
  have hshape : Conditional.closingOf p = opening ++ '/' :: (p.word.toList ++ closing) := by
    simp [Conditional.closingOf]
  rw [hshape]
  refine unread_partsText (readsBraces_afterStart? _) (fun t _ r => ?_) rest
  exact t.afterStart?_text (by decide) _ r

theorem Body.unread_elseMarker (b : Body) (rest : List Char) :
    Unread (afterStart? Conditional.elseMarker) (partsText b.parts) rest := by
  have hr : ReadsBraces (afterStart? Conditional.elseMarker) :=
    readsBraces_afterStart? (['e', 'l', 's', 'e'] ++ closing)
  exact unread_partsText hr (fun t ht r => t.afterStart?_elseMarker (b.noElse _ ht) r) rest

/-- A region of the language is read as it is written, whatever follows it. -/
theorem RegionForm.canonicalBefore (r : RegionForm) (rest : List Char) :
    r.conditional.CanonicalBefore rest where
  gap := r.gap_ne
  blank := r.blank
  condition := r.isKey
  closes := by
    simp only [Conditional.body, Conditional.alternativeText, conditional, String.toList_ofList]
    refine unread_append.2 ⟨unread_closingOf .., ?_⟩
    cases r.alternative with
    | none => trivial
    | some b =>
      simp only [Option.map_some, Option.elim_some, String.toList_ofList]
      refine unread_append.2 ⟨?_, unread_closingOf ..⟩
      have hbody : '{' ∉ ['e', 'l', 's', 'e'] := by decide
      refine unread_marker (readsBraces_afterStart? _) hbody ?_
      cases r.polarity <;> rfl
  splits := by
    simp only [conditional, String.toList_ofList]
    exact r.first.unread_elseMarker _

/-! ## Evaluation -/

section
variable (formatters : Formatters) (data : Members)

theorem branch_conditional (r : RegionForm) :
    (Conditional.branch data r.conditional).toList = partsText ((Item.region r).shown data) := by
  obtain ⟨polarity, gap, _, _, condition, _, first, alternative⟩ := r
  cases polarity <;> cases alternative <;>
    cases h : Json.isTruthy (Json.resolve condition data) <;>
    simp [Conditional.branch, RegionForm.conditional, Item.shown, h, partsText]

/-- **Deciding the regions** leaves the parts that are shown, as they are written. -/
theorem selectBranches_itemsText (items : List Item) :
    Conditional.selectBranches data (items.flatMap Item.text) =
      partsText (items.flatMap (Item.shown data)) := by
  rw [Conditional.selectBranches]
  induction items with
  | nil => rw [List.flatMap_nil, pieces_nil]; rfl
  | cons i items ih =>
    simp only [List.flatMap_cons, partsText, List.flatMap_append] at ih ⊢
    cases i with
    | part p =>
      have h : Unread Conditional.read? (partsText [p]) (items.flatMap Item.text) :=
        unread_partsText Conditional.readsBraces_read? (fun t _ => t.conditional_read?_text) _
      rw [partsText, List.flatMap_singleton] at h
      rw [Item.text, pieces_append_of_unread h, substitute_append, substitute_chars, ih]
      simp [Item.shown]
    | region r =>
      have hne : r.conditional.text ≠ [] := by
        simp [Conditional.text, Conditional.openingOf, opening]
      have hread := Conditional.read?_text (r.canonicalBefore (items.flatMap Item.text))
      rw [Item.text, pieces_append_of_read hne hread, substitute_item, ih, branch_conditional]
      rfl

/-- **Replacing the tags** of written parts gives their meanings. -/
theorem replaceTags_partsText (ps : List Part) :
    Processor.replaceTags formatters data (partsText ps) =
      ps.flatMap (Part.meaning formatters data) := by
  rw [Processor.replaceTags]
  induction ps with
  | nil => rw [partsText, List.flatMap_nil, pieces_nil]; rfl
  | cons p ps ih =>
    simp only [partsText, List.flatMap_cons] at ih ⊢
    cases p with
    | literal l =>
      have h := unread_literal readsBraces_read? l.closed l.ended (ps.flatMap Part.text)
      rw [Part.text, pieces_append_of_unread h, substitute_append, substitute_chars, ih]
      rfl
    | tag t =>
      have hne : t.tag.text ≠ [] := by simp [Tag.text, opening]
      have hread := read?_text t.canonical (ps.flatMap Part.text)
      rw [Part.text, pieces_append_of_read hne hread, substitute_item, ih]
      simp only [Processor.resolveTag, t.pipes_tag]
      rfl

end

/-- **A written template is replaced by the meanings of its items.**  Its tags and conditions are
    resolved with the data and the present values of the globals that the data does not define. -/
theorem run_templateText (p : Processor) (data : Members) (items : List Item) :
    p.run (templateText items) data =
      String.ofList (items.flatMap (Item.meaning p.formatters (p.globals.merged data))) ∧
    ∀ key, Dict.get? (p.globals.merged data) key =
      (Dict.get? data key).or ((Dict.get? p.globals key).map GlobalTag.present) := by
  refine ⟨?_, Globals.get?_merged p.globals data⟩
  rw [Processor.run, templateText, String.toList_ofList, selectBranches_itemsText,
    replaceTags_partsText, List.flatMap_assoc]
  rfl

/-- A template of a literal, a tag with a pipe and a region. -/
example : templateText
    [.part (.literal ⟨"Dear ", by decide, by decide⟩),
     .part (.tag ⟨"name", ⟨by decide, List.all_eq_true.1 (by decide)⟩, [⟨"upper", none⟩], by
      simp only [List.forall_mem_singleton]
      exact ⟨by decide, by decide, by simp, by simp⟩⟩),
     .region ⟨.whenFalse, " ", by decide, List.all_eq_true.1 (by decide), "paid",
      ⟨by decide, List.all_eq_true.1 (by decide)⟩,
      ⟨[.literal ⟨"!", by decide, by decide⟩], by decide⟩, none⟩] =
    "Dear \x7b\x7bname|upper\x7d\x7d\x7b\x7b#unless paid\x7d\x7d!\x7b\x7b/unless\x7d\x7d" := by
  decide

end Tag

end Letterpress
