/-
  Sections are flat.

  * `Level.enter` says where a tag may stand: sections in the body, columns in sections, and all
    other elements in columns.  A text is `Flat` if each of its tags stands where it may, and every
    section and every column is closed.
  * `Leads p s q`: a reader at `p` is at `q` behind the text `s`, whatever follows; if there is no
    such level, a tag of `s` stands where it may not.
  * `leads_content`: blocks stay inside their column, but for raw markup, which opens a section.
  * `Setup.flat_iff`: **a body is flat if and only if it has no raw markup.**
-/
import Letterpress.Proofs.Markup.Sanitizer
import Letterpress.Proofs.Render.Fragment
import Letterpress.Proofs.Render.Sections

namespace Letterpress.Render

open List (Sublist)
open Markup

/-! ## Levels -/

/-- Where a tag of a body stands. -/
inductive Level where
  | outside
  | inSection
  | inColumn
deriving DecidableEq, Repr

namespace Level

/-- The level behind a tag, if the tag may stand there. -/
def enter (closing : Bool) (element : String) : Level → Option Level
  | outside => if element = "mj-section" ∧ closing = false then some inSection else none
  | inSection =>
    if element = "mj-section" ∧ closing = true then some outside
    else if element = "mj-column" ∧ closing = false then some inColumn
    else none
  | inColumn =>
    if element = "mj-column" ∧ closing = true then some inSection
    else if element = "mj-section" ∨ element = "mj-column" then none
    else some inColumn

/-- The level behind the tags of a text. -/
def walk (p : Level) (s : List Char) : Option Level :=
  (tagsIn s).foldlM (fun p t => p.enter t.closing t.element) p

/-- The level, unless something stands where it may not. -/
def unlessBad (p : Level) (bad : Bool) : Option Level := if bad then none else some p

theorem unlessBad_eq_some_iff {p : Level} {bad : Bool} :
    p.unlessBad bad = some p ↔ bad = false := by
  cases bad <;> simp [unlessBad]

end Level

/-- The text is a sequence of sections, each with nothing but columns, and in the columns there is
    no section and no column. -/
def Flat (markup : String) : Prop := Level.outside.walk markup.toList = some .outside

instance (markup : String) : Decidable (Flat markup) := inferInstanceAs (Decidable (_ = _))

/-- A reader at `p` is at `q` behind the text, whatever follows. -/
def Leads (p : Level) (s : List Char) (q : Option Level) : Prop :=
  ∀ rest, p.walk (s ++ rest) = q.bind fun q => q.walk rest

namespace Leads

open Level

variable {p q : Level} {s t : List Char}

theorem nil (p : Level) : Leads p [] (some p) := fun _ => rfl

theorem append {r : Option Level} (hs : Leads p s (some q)) (ht : Leads q t r) :
    Leads p (s ++ t) r := by
  intro rest
  rw [List.append_assoc, hs, Option.bind_some, ht]

theorem append_none (hs : Leads p s none) (t : List Char) : Leads p (s ++ t) none := by
  intro rest
  rw [List.append_assoc, hs]
  rfl

theorem of_notMem (h : '<' ∉ s) : Leads p s (some p) := by
  intro rest
  rw [walk, tagsIn_append_of_notMem h]
  rfl

/-- A text has at most one level behind it. -/
theorem walk_eq {r : Option Level} (h : Leads p s r) : p.walk s = r := by
  have hend := h []
  rw [List.append_nil] at hend
  rw [hend]
  cases r <;> rfl

/-- Texts that do not leave a level, unless one of them is bad. -/
theorem flatMap {α : Type} {f : α → List Char} {bad : α → Bool} {xs : List α}
    (h : ∀ x ∈ xs, Leads p (f x) (p.unlessBad (bad x))) :
    Leads p (xs.flatMap f) (p.unlessBad (xs.any bad)) := by
  induction xs with
  | nil => exact nil p
  | cons x xs ih =>
    obtain ⟨hx, hxs⟩ := List.forall_mem_cons.1 h
    rw [List.flatMap_cons, List.any_cons]
    cases hbad : bad x with
    | true =>
      rw [hbad] at hx
      exact append_none hx _
    | false =>
      rw [hbad] at hx
      exact append hx (ih hxs)

theorem flatMap_stay {α : Type} {f : α → List Char} {xs : List α}
    (h : ∀ x ∈ xs, Leads p (f x) (some p)) : Leads p (xs.flatMap f) (some p) := by
  have hnone : xs.any (fun _ => false) = false := by simp
  have hall : Leads p (xs.flatMap f) (p.unlessBad (xs.any fun _ => false)) := flatMap h
  rwa [hnone] at hall

end Leads

/-! ## Tags -/

/-- The name of an element: it begins with a letter. -/
def isElementName (name : String) : Bool :=
  name.toList.head?.any Char.isAlpha && name.toList.all isNameChar

/-- The text behind the name of an element, up to the end of the tag. -/
structure BehindName (s : List Char) : Prop where
  start : ∀ c ∈ s.head?, isNameChar c = false
  inside : '>' ∉ s

section

variable {p q : Level} {name : String}

/-- A tag leads where its element leads. -/
theorem leads_tag (closing : Bool) {behind : List Char} (hname : isElementName name = true)
    (hbehind : BehindName behind) :
    Leads p ('<' :: (if closing then ['/'] else []) ++ (name.toList ++ behind) ++ ['>'])
      (p.enter closing name) := by
  rw [isElementName, Bool.and_eq_true, Option.any_eq_true, List.all_eq_true] at hname
  obtain ⟨⟨c, hc, halpha⟩, hchars⟩ := hname
  have hwritable : (RawTag.ofText closing (name.toList ++ behind)).Writable := by
    refine RawTag.writable_ofText ⟨c, ?_, halpha⟩ ?_
    · rw [List.head?_append_of_ne_nil _ (List.ne_nil_of_mem (List.mem_of_mem_head? hc))]
      exact hc
    · rw [List.mem_append, not_or]
      exact ⟨fun h => absurd (hchars _ h) (by decide), hbehind.inside⟩
  intro rest
  rw [← RawTag.text_ofText, Level.walk, tagsIn_of_read hwritable, List.foldlM_cons,
    RawTag.element_ofText _ hchars hbehind.start, String.ofList_toList]
  rfl

theorem leads_start {behind : List Char} (hname : isElementName name = true)
    (hbehind : BehindName behind) :
    Leads p ('<' :: name.toList ++ behind ++ ['>']) (p.enter false name) := by
  have h : Leads p ('<' :: [] ++ (name.toList ++ behind) ++ ['>']) (p.enter false name) :=
    leads_tag false hname hbehind
  simpa using h

theorem leads_stop (hname : isElementName name = true) :
    Leads p (['<', '/'] ++ name.toList ++ ['>']) (p.enter true name) := by
  have h : Leads p ('<' :: ['/'] ++ (name.toList ++ []) ++ ['>']) (p.enter true name) :=
    leads_tag true hname ⟨nofun, List.not_mem_nil⟩
  simpa using h

/-- The content of an element decides what is behind the element. -/
theorem leads_element {behind content : List Char} {bad : Bool}
    (hopen : p.enter false name = some q) (hclose : q.enter true name = some p)
    (hname : isElementName name = true) (hbehind : BehindName behind)
    (h : Leads q content (q.unlessBad bad)) :
    Leads p ('<' :: name.toList ++ behind ++ ['>'] ++ content ++
      (['<', '/'] ++ name.toList ++ ['>'])) (p.unlessBad bad) := by
  have hfirst := leads_start (p := p) hname hbehind
  rw [hopen] at hfirst
  cases bad with
  | true => exact (hfirst.append h).append_none _
  | false =>
    have hlast := leads_stop (p := q) hname
    rw [hclose] at hlast
    exact (hfirst.append h).append hlast

end

/-! ## Tokens -/

theorem behindName_text {as : Attributes} (h : ∀ a ∈ as, isName a.1 = true) :
    BehindName as.text.toList := by
  rw [Attributes.text, String.toList_ofList]
  constructor
  case start =>
    intro c hc
    cases hwritten : as.written with
    | nil => rw [hwritten] at hc; cases hc
    | cons a as =>
      rw [hwritten] at hc
      cases hc
      decide
  case inside =>
    rw [List.mem_flatMap]
    rintro ⟨a, ha, hmem⟩
    have hname := h a (List.mem_filter.1 ha).1
    rw [isName, Bool.and_eq_true, List.all_eq_true] at hname
    have hkey : '>' ∉ a.1.toList := fun hkey => absurd (hname.2 _ hkey) (by decide)
    have hvalue : '>' ∉ escapeAttribute a.2.toList := fun hvalue =>
      (mem_escapeAttribute hvalue).2.2 rfl
    simp [Attributes.attributeText, hkey, hvalue] at hmem

/-- The elements that tell the levels apart. -/
def structural : List String := ["mj-section", "mj-column"]

/-- All other elements stay in their column. -/
theorem enter_inColumn {name : String} (h : name ∉ structural) (closing : Bool) :
    Level.inColumn.enter closing name = some .inColumn := by
  simp only [structural, List.mem_cons, List.not_mem_nil, or_false, not_or] at h
  simp [Level.enter, h]

/-- A token of a vocabulary without sections and columns stays in its column. -/
theorem leads_token {v : Vocabulary} (hv : v.Sound)
    (hnames : ∀ entry ∈ v, isElementName entry.1 = true ∧ entry.1 ∉ structural) {t : Token}
    (h : t.Within v) : Leads .inColumn t.write (some .inColumn) := by
  have hreadable := h.readable hv
  cases t with
  | start name as =>
    obtain ⟨keys, hmem, -⟩ := h
    obtain ⟨hname, hother⟩ := hnames _ hmem
    rw [← enter_inColumn hother false]
    exact leads_start hname (behindName_text hreadable.2)
  | empty name as =>
    obtain ⟨keys, hmem, -⟩ := h
    obtain ⟨hname, hother⟩ := hnames _ hmem
    have hbehind : BehindName (as.text.toList ++ [' ', '/']) := by
      obtain ⟨hstart, hinside⟩ := behindName_text hreadable.2
      constructor
      case start =>
        cases has : as.text.toList with
        | nil => simp [isNameChar]
        | cons c s => rwa [has] at hstart
      case inside => simpa using hinside
    rw [← enter_inColumn hother false]
    have htag := leads_start (p := .inColumn) hname hbehind
    simpa [Token.write] using htag
  | stop name =>
    obtain ⟨keys, hmem⟩ := h
    obtain ⟨hname, hother⟩ := hnames _ hmem
    rw [← enter_inColumn hother true]
    exact leads_stop hname
  | text content => exact .of_notMem fun h => mem_escapeText h rfl
  | raw markup => exact absurd h id

/-! ## Content blocks -/

theorem names_vocabulary {kind : Kind} (h : kind ∈ plainKinds) :
    ∀ entry ∈ vocabulary kind, isElementName entry.1 = true ∧ entry.1 ∉ structural := by
  have hall : ∀ kind ∈ plainKinds, ∀ entry ∈ vocabulary kind,
      isElementName entry.1 = true ∧ entry.1 ∉ structural := by decide +kernel
  exact hall kind h

theorem leads_plain {kind : Kind} (h : kind ∈ plainKinds) (props : Members) :
    Leads .inColumn (writeAll (contentTokens kind props)).toList (some .inColumn) := by
  rw [toList_writeAll]
  exact .flatMap_stay fun t ht =>
    leads_token (sound_vocabulary h) (names_vocabulary h) (within_vocabulary props h t ht)

/-- No element of rich text is a section or a column. -/
theorem element_of_harmless {t : RawTag} (h : t.Harmless) : t.element ∉ structural := by
  have hname := (RawTag.writable_name h.element).2
  rw [String.toList_ofList] at hname
  have hprefix : t.name <+: t.element.toList := by
    have hchars : ∀ c ∈ t.name, isNameChar c = true := fun c hc => by simp [isNameChar, hname c hc]
    rw [RawTag.element, String.toList_ofList, List.takeWhile_append_of_pos hchars]
    exact List.prefix_append _ _
  have hnone : ∀ name ∈ allowedElements, ∀ e ∈ structural, ¬ name.toList <+: e.toList := by decide
  intro hmem
  have hnot := hnone _ h.element _ hmem
  rw [String.toList_ofList] at hnot
  exact hnot hprefix

/-- Rich text with the tag behind it stays in its column, if it is seamless. -/
theorem leads_sanitized {html : String} (h : Seamless html) {name : String}
    (hname : isElementName name = true) (hother : name ∉ structural) :
    Leads .inColumn ((sanitize html).toList ++ (Token.stop name).write) (some .inColumn) := by
  have hstay : ∀ ts : List RawTag, (∀ t ∈ ts, t.Harmless) →
      ts.foldlM (fun p t => p.enter t.closing t.element) Level.inColumn = some .inColumn := by
    intro ts hts
    induction ts with
    | nil => rfl
    | cons t ts ih =>
      obtain ⟨ht, hts⟩ := List.forall_mem_cons.1 hts
      rw [List.foldlM_cons, enter_inColumn (element_of_harmless ht)]
      exact ih hts
  have hstop : Leads .inColumn (Token.stop name).write (some .inColumn) := by
    rw [← enter_inColumn hother true]
    exact leads_stop hname
  intro rest
  have hsign : ∀ c ∈ ((Token.stop name).write ++ rest).head?, c = '<' := by
    rintro c ⟨⟩
    rfl
  rw [List.append_assoc, Level.walk, tagsIn_sanitize_append h hsign, List.foldlM_append, hstay]
  · exact hstop rest
  · intro u hu
    obtain ⟨t, -, htu⟩ := List.mem_filterMap.1 hu
    exact RawTag.harmless_of_rewritten? htu

theorem leads_text {props : Members} (h : Seamless (Props.textOr props "content" "")) :
    Leads .inColumn (writeAll (contentTokens .text props)).toList (some .inColumn) := by
  have hname : isElementName "mj-text" = true := by decide
  have hother : "mj-text" ∉ structural := by decide
  have hkeys : ∀ a ∈ textAttributes props, isName a.1 = true := by
    simp only [textAttributes, List.forall_mem_cons]
    decide
  have hstart : Leads .inColumn (Token.start "mj-text" (textAttributes props)).write
      (some .inColumn) := by
    rw [← enter_inColumn hother false]
    exact leads_start hname (behindName_text hkeys)
  have hwhole := hstart.append (leads_sanitized h hname hother)
  simpa [toList_writeAll, contentTokens, Token.write] using hwhole

/-- Raw markup opens a section of its own where it stands. -/
theorem leads_html (props : Members) :
    Leads .inColumn (html props).toList
      (Level.inColumn.unlessBad (Props.nonEmpty? props "content").isSome) := by
  rw [html]
  cases Props.nonEmpty? props "content" with
  | none => exact .nil _
  | some content =>
    -- the padding may hold the sign that ends the tag, but the name stands before it
    let behind := (Props.padding props "padding").toList ++
      ("\"><mj-column><mj-raw>" ++ content ++ "</mj-raw></mj-column></mj-section>").toList
    obtain ⟨v, t, hcut, hv⟩ : ∃ v t, behind = v ++ '>' :: t ∧ '>' ∉ v :=
      List.eq_append_cons_of_mem (by simp [behind])
    have hsection : isElementName "mj-section" = true := by decide
    have hbehind : BehindName (" padding=\"".toList ++ v) := by
      refine ⟨by simp [isNameChar], ?_⟩
      rw [List.mem_append, not_or]
      exact ⟨by decide, hv⟩
    have hopen : Leads .inColumn
        ('<' :: "mj-section".toList ++ (" padding=\"".toList ++ v) ++ ['>']) none :=
      leads_start hsection hbehind
    have htext : ("<mj-section padding=\"" ++ Props.padding props "padding" ++
        "\"><mj-column><mj-raw>" ++ content ++ "</mj-raw></mj-column></mj-section>").toList =
        "<mj-section padding=\"".toList ++ behind := by simp [behind]
    have hfirst : "<mj-section padding=\"".toList ++ (v ++ '>' :: t) =
        '<' :: "mj-section".toList ++ (" padding=\"".toList ++ v) ++ ['>'] ++ t := by simp
    rw [htext, hcut, hfirst]
    exact hopen.append_none t

/-- Raw markup with something in it. -/
def opensSection (ids : Supply) (b : ContentBlock) : Bool :=
  b.kind == .html && (Props.nonEmpty? (complete ids b.kind b.props) "content").isSome

/-- A block stays in its column, unless it is raw markup. -/
theorem leads_content (ids : Supply) {b : ContentBlock}
    (h : b.kind = .text → Seamless (Props.textOr (complete ids b.kind b.props) "content" "")) :
    Leads .inColumn (writeAll (innerTokens ids b.kind b.props)).toList
      (Level.inColumn.unlessBad (opensSection ids b)) := by
  obtain ⟨id, kind, props⟩ := b
  rw [innerTokens, opensSection]
  dsimp only at h ⊢
  cases kind with
  | text => exact leads_text (h rfl)
  | html =>
    have hraw : (writeAll (contentTokens .html (complete ids .html props))).toList =
        (html (complete ids .html props)).toList := by
      simp [toList_writeAll, contentTokens, Token.write]
    rw [hraw]
    exact leads_html _
  | row | custom name => exact .nil _
  | heading | image | button | divider | spacer | video | social =>
    exact leads_plain (by decide) _

/-! ## Rows -/

theorem keys_backgroundAttributes (address size position : Option String) :
    Sublist ((backgroundAttributes address size position).map Prod.fst)
      ["background-url", "background-size", "background-position"] := by
  cases address <;> simp [backgroundAttributes]

theorem keys_sectionAttributes (style : RowStyle) (stackOnMobile : Bool) :
    Sublist ((sectionAttributes style stackOnMobile).map Prod.fst)
      ["padding", "background-color", "text-align", "css-class", "background-url",
       "background-size", "background-position", "border-radius"] := by
  simp only [sectionAttributes, List.append_assoc, List.cons_append, List.nil_append]
  refine keys_cons (keys_given_append (keys_given_append (keys_given_append ?_)))
  rw [List.map_append]
  exact (keys_backgroundAttributes _ _ _).append (keys_given _ _)

theorem keys_columnAttributes (width : String) (style : ColumnStyle) (gap : Float)
    (index total : Nat) :
    Sublist ((columnAttributes width style gap index total).map Prod.fst)
      ["width", "background-color", "vertical-align", "background-url", "background-size",
       "background-position", "background-repeat", "padding", "border-radius"] := by
  simp only [columnAttributes, List.append_assoc, List.cons_append, List.nil_append]
  refine keys_cons (keys_given_append (keys_cons ?_))
  rw [List.map_append]
  exact (keys_backgroundAttributes _ _ _).append
    (keys_given_append (keys_given_append (keys_given _ _)))

theorem behindName_of_keys {as : Attributes} {keys : List String}
    (h : Sublist (as.map Prod.fst) keys) (hkeys : ∀ key ∈ keys, isName key = true) :
    BehindName as.text.toList :=
  behindName_text fun _ ha => hkeys _ (h.subset (List.mem_map_of_mem ha))

theorem toList_element (name : String) (as : Attributes) (content : String) :
    (element name as content).toList =
      '<' :: name.toList ++ as.text.toList ++ ['>'] ++ content.toList ++
        (['<', '/'] ++ name.toList ++ ['>']) := by
  simp [element]

theorem toList_join_map {α : Type} (f : α → String) (xs : List α) :
    (String.join (xs.map f)).toList = xs.flatMap fun x => (f x).toList := by
  simp [List.flatMap_map]

section

variable {child : Kind → Members → String} {bad : ContentBlock → Bool}

/-- A column with blocks that stay inside is a column of its section. -/
theorem leads_column {c : Column}
    (h : ∀ b ∈ innerBlocks c,
      Leads .inColumn (child b.kind b.props).toList (Level.inColumn.unlessBad (bad b)))
    (gap : Float) (total index : Nat) :
    Leads .inSection (column child gap total index c).toList
      (Level.inSection.unlessBad ((innerBlocks c).any bad)) := by
  have hbehind := behindName_of_keys
    (keys_columnAttributes c.width (columnStyle c) gap index total) (by decide)
  have hcolumn : column child gap total index c =
      element "mj-column" (columnAttributes c.width (columnStyle c) gap index total)
        (String.join ((innerBlocks c).map fun b => child b.kind b.props)) := rfl
  rw [hcolumn, toList_element, toList_join_map]
  exact leads_element (by decide) (by decide) (by decide) hbehind (.flatMap h)

/-- A row with blocks that stay inside is a section of the body. -/
theorem leads_row {l : RowLayout}
    (h : ∀ c ∈ l.columns, ∀ b ∈ innerBlocks c,
      Leads .inColumn (child b.kind b.props).toList (Level.inColumn.unlessBad (bad b))) :
    Leads .outside (rowLayout child l).toList
      (Level.outside.unlessBad ((l.columns.flatMap innerBlocks).any bad)) := by
  have hbehind := behindName_of_keys
    (keys_sectionAttributes l.style l.stackOnMobile) (by decide)
  have hcolumns : Leads .inSection
      (String.join (l.columns.mapIdx (column child l.gap l.columns.length))).toList
      (Level.inSection.unlessBad (l.columns.zipIdx.any fun p => (innerBlocks p.1).any bad)) := by
    rw [List.mapIdx_eq_zipIdx_map, toList_join_map]
    exact .flatMap fun p hp => leads_column (h p.1 (List.fst_mem_of_mem_zipIdx hp)) _ _ _
  have hany : (l.columns.zipIdx.any fun p => (innerBlocks p.1).any bad) =
      (l.columns.flatMap innerBlocks).any bad := by
    calc (l.columns.zipIdx.any fun p => (innerBlocks p.1).any bad)
        = (l.columns.zipIdx.map Prod.fst).any fun c => (innerBlocks c).any bad := by
          rw [List.any_map]; rfl
      _ = l.columns.any fun c => (innerBlocks c).any bad := by rw [List.zipIdx_map_fst]
      _ = (l.columns.flatMap innerBlocks).any bad := List.any_flatMap.symm
  rw [hany] at hcolumns
  rw [rowLayout, toList_element]
  exact leads_element (by decide) (by decide) (by decide) hbehind hcolumns

/-! ## Strips -/

/-- The section around content blocks that stay inside is a section of the body, with one column. -/
theorem leads_contentSection {background content : String} {bad : Bool}
    (hbackground : '>' ∉ background.toList)
    (h : Leads .inColumn content.toList (Level.inColumn.unlessBad bad)) :
    Leads .outside (contentSection background content).toList (Level.outside.unlessBad bad) := by
  rw [contentSection]
  split
  · rename_i hempty
    -- nothing stands where it may not if nothing stands there at all
    rw [String.isEmpty_iff] at hempty
    subst hempty
    have hwalk := h.walk_eq
    cases bad with
    | false => exact .nil _
    | true => cases hwalk
  · have hcolumn : Leads .inSection
        ('<' :: "mj-column".toList ++ [] ++ ['>'] ++ content.toList ++
          (['<', '/'] ++ "mj-column".toList ++ ['>'])) (Level.inSection.unlessBad bad) :=
      leads_element (by decide) (by decide) (by decide) ⟨nofun, List.not_mem_nil⟩ h
    have hbehind : BehindName
        (" background-color=\"".toList ++ background.toList ++ "\" padding=\"0\"".toList) := by
      refine ⟨by simp [isNameChar], ?_⟩
      simp only [List.mem_append, not_or]
      exact ⟨⟨by decide, hbackground⟩, by decide⟩
    have hsection := @leads_element .outside .inSection "mj-section" _ _ _ (by decide) (by decide)
      (by decide) hbehind hcolumn
    simpa using hsection

/-- A strip with blocks that stay inside is a section of the body, or nothing. -/
theorem leads_strip {ids : Supply} {data : Members} {background : String}
    (hbackground : '>' ∉ background.toList) {strip : Strip}
    (h : ∀ b ∈ strip.blocks, Leads .inColumn
      (Registry.builtin.render ids b.kind b.props data).toList (Level.inColumn.unlessBad (bad b))) :
    Leads .outside
      (strip.text (fun b => Registry.builtin.renderBlock ids b data) background).toList
      (Level.outside.unlessBad (strip.blocks.any bad)) := by
  cases strip with
  | run blocks =>
    rw [blocks_run] at h ⊢
    have hcontent : Leads .inColumn
        (String.join (blocks.map fun b => Registry.builtin.render ids b.kind b.props data)).toList
        (Level.inColumn.unlessBad (blocks.any bad)) := by
      rw [toList_join_map]
      exact .flatMap h
    exact leads_contentSection hbackground hcontent
  | row id l =>
    rw [blocks_row, Block.written] at h ⊢
    rw [Strip.text, renderBlock_row]
    cases hagain : l.again? with
    | none => exact .nil _
    | some l =>
      rw [hagain, Option.toList_some, List.flatMap_singleton] at h
      rw [toList_join_map, Option.toList_some, List.flatMap_singleton, List.flatMap_singleton]
      exact leads_row fun c hc b hb => h b (List.mem_flatMap.2 ⟨c, hc, hb⟩)

end

/-! ## Bodies -/

theorem isRow_of_mem_written {blocks : List Block}
    (hcontent : ∀ b, .content b ∈ blocks → b.kind.isRow = false) :
    ∀ b ∈ blocks.flatMap Block.written, b.kind.isRow = false := by
  intro b hb
  obtain ⟨block, hblock, hb⟩ := List.mem_flatMap.1 hb
  cases block with
  | content c =>
    obtain rfl := List.mem_singleton.1 hb
    exact hcontent _ hblock
  | row id l =>
    obtain ⟨l', -, hb⟩ := List.mem_flatMap.1 hb
    obtain ⟨c, -, hb⟩ := List.mem_flatMap.1 hb
    simpa using (List.mem_filter.1 hb).2

namespace Setup

/-- **A body is flat if and only if it has no raw markup.**  The body is made of strips, a row is
written with its columns and the blocks in them, and every block that is written stands in one
column of one strip.  The body is a sequence of sections that have columns, and in the columns
neither sections nor columns, exactly if every block of raw markup in it is empty: raw markup
brings a section of its own into the column that it stands in.  Rich text is taken as seamless, the
background without the sign that ends a tag, and content blocks as no rows. -/
theorem flat_iff {s : Setup} (hs : s.registry = .builtin) {blocks : List Block}
    (hcontent : ∀ b, .content b ∈ blocks → b.kind.isRow = false)
    {settings : Settings} (hbackground : '>' ∉ settings.contentBackgroundColor.toList)
    (htext : ∀ b ∈ blocks.flatMap Block.written, b.kind = .text →
      Seamless (Props.textOr (complete s.ids b.kind b.props) "content" ""))
    (preview : Option String) (data : Members) :
    let write (b : Block) := s.registry.renderBlock s.ids b data
    let child (kind : Kind) (props : Members) := s.registry.render s.ids kind props data
    let body :=
      String.join ((strips blocks).map (Strip.text write settings.contentBackgroundColor))
    s.document blocks settings preview data = page body settings preview ∧
      (∀ id l, write (.row id l) = String.join (l.again?.toList.map (rowLayout child))) ∧
      (strips blocks).flatMap Strip.blocks = blocks.flatMap Block.written ∧
      (Flat body ↔ ∀ b ∈ blocks.flatMap Block.written, b.kind = .html →
        Props.nonEmpty? (complete s.ids b.kind b.props) "content" = none) := by
  intro write child body
  have hwrite : write = fun b => Registry.builtin.renderBlock s.ids b data := by
    simp only [write, hs]
  have hchild : child = fun kind props => Registry.builtin.render s.ids kind props data := by
    simp only [child, hs]
  have hdocument : s.document blocks settings preview data = page body settings preview :=
    congrArg (fun body => page body settings preview)
      (sections_eq write settings.contentBackgroundColor blocks)
  have hblocks := flatMap_blocks_strips blocks
  refine ⟨hdocument, fun id l => ?_, hblocks, ?_⟩
  · rw [hwrite, hchild]
    exact renderBlock_row s.ids data id l
  have hrow := isRow_of_mem_written hcontent
  have hinner : ∀ b ∈ blocks.flatMap Block.written,
      Leads .inColumn (Registry.builtin.render s.ids b.kind b.props data).toList
        (Level.inColumn.unlessBad (opensSection s.ids b)) := by
    intro b hb
    have hwritten : Registry.builtin.render s.ids b.kind b.props data =
        writeAll (innerTokens s.ids b.kind b.props) :=
      render_content s.ids (hrow b hb) b.props data
    rw [hwritten]
    exact leads_content s.ids (htext b hb)
  have hbody : Leads .outside body.toList
      (Level.outside.unlessBad ((strips blocks).any fun strip =>
        strip.blocks.any (opensSection s.ids))) := by
    rw [toList_join_map, hwrite]
    refine .flatMap fun strip hstrip => leads_strip hbackground fun b hb => hinner b ?_
    rw [← hblocks]
    exact List.mem_flatMap.2 ⟨strip, hstrip, hb⟩
  have hany : ((strips blocks).any fun strip => strip.blocks.any (opensSection s.ids)) =
      (blocks.flatMap Block.written).any (opensSection s.ids) := by
    rw [← hblocks, List.any_flatMap]
  rw [Flat, hbody.walk_eq, hany, Level.unlessBad_eq_some_iff, List.any_eq_false]
  exact forall₂_congr fun b _ => by simp [opensSection]

/-- Rich text around a row with a block of empty raw markup. -/
theorem flat_iff_of_empty_markup :
    let s : Setup :=
      { registry := .builtin, processor := ⟨[], .builtin⟩, compiler := fun s => .ok s,
        defaults := .initial, ids := ⟨fun _ => "", 0⟩ }
    let column : Column :=
      ⟨"c", "100%", [⟨"h", .html, []⟩, ⟨"t", .text, [("content", .string "1 < 2")]⟩], none⟩
    let blocks : List Block :=
      [.content ⟨"a", .text, [("content", .string "<p>Hello <x>you</p>")]⟩,
       .row "r" ⟨.oneColumn, [column], RowLayout.initialGap, true, .initial⟩,
       .content ⟨"b", .heading, []⟩]
    let write (b : Block) := s.registry.renderBlock s.ids b []
    s.registry = .builtin ∧ (∀ b, .content b ∈ blocks → b.kind.isRow = false) ∧
      '>' ∉ Settings.initial.contentBackgroundColor.toList ∧
      (∀ b ∈ blocks.flatMap Block.written, b.kind = .text →
        Seamless (Props.textOr (complete s.ids b.kind b.props) "content" "")) ∧
      Flat (String.join ((strips blocks).map
        (Strip.text write Settings.initial.contentBackgroundColor))) := by
  intro s column blocks write
  have hs : s.registry = .builtin := rfl
  have hcontent : ∀ b, .content b ∈ blocks → b.kind.isRow = false := by
    intro b hb
    simp only [blocks, List.mem_cons, Block.content.injEq, reduceCtorEq, false_or, List.not_mem_nil,
      or_false] at hb
    rcases hb with rfl | rfl <;> rfl
  have hbackground : '>' ∉ Settings.initial.contentBackgroundColor.toList := by decide
  have htext : ∀ b ∈ blocks.flatMap Block.written, b.kind = .text →
      Seamless (Props.textOr (complete s.ids b.kind b.props) "content" "") := by
    decide +kernel
  have hempty : ∀ b ∈ blocks.flatMap Block.written, b.kind = .html →
      Props.nonEmpty? (complete s.ids b.kind b.props) "content" = none := by
    decide +kernel
  have h := flat_iff hs hcontent hbackground htext none []
  exact ⟨hs, hcontent, hbackground, htext, h.2.2.2.2 hempty⟩

/-- The section of raw markup stands in the column of another section. -/
theorem not_flat_of_raw_markup :
    let s : Setup :=
      { registry := .builtin, processor := ⟨[], .builtin⟩, compiler := fun s => .ok s,
        defaults := .initial, ids := ⟨fun _ => "", 0⟩ }
    let blocks : List Block := [.content ⟨"a", .html, [("content", .string "<b>x</b>")]⟩]
    let body := "<mj-section background-color=\"#ffffff\" padding=\"0\"><mj-column>" ++
      "<mj-section padding=\"10px 20px 10px 20px\"><mj-column><mj-raw><b>x</b></mj-raw>" ++
      "</mj-column></mj-section></mj-column></mj-section>"
    ¬ "<mj-".toList <:+: "<b>x</b>".toList ∧
      s.document blocks .initial none [] = page body .initial none ∧ ¬ Flat body := by
  intro s blocks body
  refine ⟨by decide +kernel, ?_, by decide +kernel⟩
  have hbody : sections (fun b => s.registry.renderBlock s.ids b [])
      Settings.initial.contentBackgroundColor blocks = body := by decide +kernel
  exact congrArg (fun body => page body .initial none) hbody

end Setup

end Letterpress.Render
