/-
  Where the links and images of blocks lead.

  * `values` are the values of attributes by name, in the order in which they are written.
  * `SafeLinks`: markup is made of tags whose links and images are the given ones, each checked, so
    that none has a refused address.
  * `ShedsRefused`: a background image with a refused address leaves no trace in a row.
  * `links_are_safe`: both hold for blocks of all built-in kinds, where only raw markup is left out.
-/
import Letterpress.Proofs.Render.Fragment

namespace Letterpress.Render

open Markup

/-! ## Values of attributes -/

/-- The values of the attributes with one of the names. -/
def valuesOf (keys : List String) (as : Attributes) : List String :=
  (as.filter fun a => a.1 ∈ keys).map Prod.snd

/-- The values of the attributes with one of the names, in all tags. -/
def values (keys : List String) (ts : List Token) : List String :=
  ts.flatMap fun t => valuesOf keys t.attributes

section

variable (keys : List String)

@[simp] theorem valuesOf_nil : valuesOf keys [] = [] := rfl

@[simp] theorem valuesOf_cons (key value : String) (as : Attributes) :
    valuesOf keys ((key, value) :: as) =
      if key ∈ keys then value :: valuesOf keys as else valuesOf keys as := by
  rw [valuesOf, List.filter_cons]
  split <;> simp_all [valuesOf]

@[simp] theorem valuesOf_append (as bs : Attributes) :
    valuesOf keys (as ++ bs) = valuesOf keys as ++ valuesOf keys bs := by
  simp [valuesOf]

@[simp] theorem valuesOf_given (key : String) (value : Option String) :
    valuesOf keys (Attributes.given key value) = if key ∈ keys then value.toList else [] := by
  cases value <;> simp [Attributes.given]

@[simp] theorem values_nil : values keys [] = [] := rfl

@[simp] theorem values_cons (t : Token) (ts : List Token) :
    values keys (t :: ts) = valuesOf keys t.attributes ++ values keys ts := rfl

@[simp] theorem values_append (ts us : List Token) :
    values keys (ts ++ us) = values keys ts ++ values keys us := List.flatMap_append

theorem values_flatMap {α : Type} (f : α → List Token) (xs : List α) :
    values keys (xs.flatMap f) = xs.flatMap fun x => values keys (f x) := List.flatMap_assoc

end

theorem mem_values {keys : List String} {ts : List Token} {t : Token} {a : String × String}
    (ht : t ∈ ts) (ha : a ∈ t.attributes) (hkey : a.1 ∈ keys) : a.2 ∈ values keys ts := by
  refine List.mem_flatMap.2 ⟨t, ht, List.mem_map.2 ⟨a, ?_, rfl⟩⟩
  exact List.mem_filter.2 ⟨ha, by simpa using hkey⟩

/-! ## Safe links -/

/-- The attributes that hold a link or an image. -/
abbrev linkKeys : List String := ["href", "src"]

/-- The attribute that holds a background image. -/
abbrev imageKeys : List String := ["background-url"]

/-- Markup is made of tags and of sanitized texts.  The links and images in the tags are `targets`,
    each of them checked, the background images those of `images` that are not refused, and so none
    of them is refused, also by a reader that decodes it. -/
structure SafeLinks (markup : String) (ts : List Token) (targets : List String)
    (images : List (Option String)) : Prop where
  written : markup = writeAll ts
  raw : ∀ s, .raw s ∈ ts → ∃ rich, s = sanitize rich
  targets : values linkKeys ts = targets.map safeUrl
  images : values imageKeys ts = images.filterMap backgroundImage?
  safe : ∀ t ∈ ts, ∀ a ∈ t.attributes, a.1 ∈ linkKeys ++ imageKeys →
    isSafeUrl (String.ofList (decode (escapeAttribute a.2.toList))) = true

theorem isSafeUrl_of_backgroundImage? {address : Option String} {a : String}
    (h : backgroundImage? address = some a) : isSafeUrl a = true := by
  have hkept := (Option.filter_eq_some_iff.1 h).2
  rw [Bool.and_eq_true] at hkept
  exact hkept.2

/-- Links and images that are checked are safe. -/
theorem safeLinks_of_values {markup : String} {ts : List Token} {targets : List String}
    {images : List (Option String)} (written : markup = writeAll ts)
    (raw : ∀ s, .raw s ∈ ts → ∃ rich, s = sanitize rich)
    (htargets : values linkKeys ts = targets.map safeUrl)
    (himages : values imageKeys ts = images.filterMap backgroundImage?) :
    SafeLinks markup ts targets images := by
  refine ⟨written, raw, htargets, himages, fun t ht a ha hkey => ?_⟩
  rw [decode_escapeAttribute, String.ofList_toList]
  rcases List.mem_append.1 hkey with hkey | hkey
  · have hvalue := mem_values ht ha hkey
    rw [htargets] at hvalue
    obtain ⟨url, -, hurl⟩ := List.mem_map.1 hvalue
    rw [← hurl]
    exact isSafeUrl_safeUrl url
  · have hvalue := mem_values ht ha hkey
    rw [himages] at hvalue
    obtain ⟨address, -, haddress⟩ := List.mem_filterMap.1 hvalue
    exact isSafeUrl_of_backgroundImage? haddress

/-! ## Content blocks -/

/-- The address of the icon of a link. -/
def iconAddress (style color : String) (link : Members) : String :=
  let platform := Props.textOr link "platform" ""
  iconUrl platform (if style = "circle" then "white" else iconColor platform style color)

/-- The addresses that a block which is no row gives for its links and images. -/
def contentTargets (kind : Kind) (props : Members) : List String :=
  match kind with
  | .button => [Props.textOr props "href" "#"]
  | .image =>
    (Props.nonEmpty? props "src").elim [] fun src => src :: (Props.nonEmpty? props "href").toList
  | .video =>
    (thumbnail? props).elim [] fun thumbnail =>
      thumbnail :: (Props.nonEmpty? props "videoUrl").toList
  | .social =>
    let style := Props.textOr props "iconStyle" "filled"
    let color := Props.textOr props "iconColor" ""
    (shownLinks props).flatMap fun link =>
      [iconAddress style color link, Props.textOr link "url" ""]
  | .text | .heading | .divider | .spacer | .html | .row | .custom _ => []

theorem schemeOf?_https (rest : List Char) :
    schemeOf? ("https".toList ++ ':' :: rest) = some "https".toList := by
  have hlead : Lead [] "https".toList (':' :: rest) := by
    constructor
    case blank => exact nofun
    case alpha => exact List.all_eq_true.1 (by decide)
    case start =>
      rintro _ ⟨⟩
      decide
    case next =>
      rintro _ ⟨⟩
      decide
  have hlower : "https".toList.map Char.toLower = "https".toList := by decide
  have hscheme := hlead.schemeOf?_eq
  rw [List.head?_cons, if_pos rfl, hlower] at hscheme
  exact hscheme

theorem iconUrl_start (platform color : String) :
    ∃ rest, (iconUrl platform color).toList = "https://cdn.simpleicons.org/".toList ++ rest := by
  unfold iconUrl
  rw [String.toList_append, String.toList_append, String.toList_append, List.append_assoc,
    List.append_assoc]
  exact ⟨_, rfl⟩

/-- Icons come from a fixed place. -/
theorem safeUrl_iconUrl (platform color : String) :
    safeUrl (iconUrl platform color) = iconUrl platform color := by
  refine if_pos (isSafeUrl_iff.2 fun refused hrefused => ?_)
  obtain ⟨rest, hrest⟩ := iconUrl_start platform color
  have hplace : "https://cdn.simpleicons.org/".toList =
      "https".toList ++ ':' :: "//cdn.simpleicons.org/".toList := rfl
  have hhttps : ∀ refused ∈ refusedSchemes, some "https".toList ≠ some refused.toList.dropLast := by
    decide
  rw [hrest, hplace, List.append_assoc, List.cons_append, schemeOf?_https]
  exact hhttps refused hrefused

theorem values_socialTokens (props : Members) :
    values linkKeys (socialTokens props) = (contentTargets .social props).map safeUrl := by
  rw [socialTokens, contentTargets]
  dsimp only
  split
  · rename_i hlinks
    simp [List.isEmpty_iff.1 hlinks]
  · have hicon (style color : String) (link : Members) :
        valuesOf linkKeys (iconToken style color link).attributes =
          [safeUrl (iconAddress style color link), safeUrl (Props.textOr link "url" "")] := by
      rw [iconAddress, safeUrl_iconUrl]
      simp [iconToken, socialElementAttributes]
    simp [values, List.flatMap_map, List.map_flatMap, hicon, socialAttributes]

theorem values_contentTokens (kind : Kind) (props : Members) :
    values linkKeys (contentTokens kind props) = (contentTargets kind props).map safeUrl := by
  cases kind with
  | text => simp [contentTokens, contentTargets, textAttributes]
  | heading => simp [contentTokens, headingTokens, contentTargets, headingAttributes]
  | image =>
    rw [contentTokens, contentTargets]
    cases Props.nonEmpty? props "src" with
    | none => rfl
    | some src => simp [imageAttributes, Option.toList_map]
  | button => simp [contentTokens, contentTargets, buttonAttributes]
  | divider =>
    rw [contentTokens, dividerTokens, contentTargets]
    split <;> simp [dividerAttributes]
  | spacer => simp [contentTokens, contentTargets, spacerAttributes]
  | video =>
    rw [contentTokens, contentTargets]
    cases thumbnail? props with
    | none => rfl
    | some thumbnail => simp [videoAttributes, Option.toList_map]
  | social => exact values_socialTokens props
  | html | row | custom => rfl

/-- A tag has no attribute that is not in its vocabulary. -/
theorem valuesOf_of_within {keys : List String} {v : Vocabulary} {t : Token} (h : t.Within v)
    (hv : ∀ entry ∈ v, ∀ key ∈ entry.2, key ∉ keys) : valuesOf keys t.attributes = [] := by
  cases t with
  | start name as | empty name as =>
    obtain ⟨own, hmem, hown⟩ := h
    rw [valuesOf, List.map_eq_nil_iff, List.filter_eq_nil_iff]
    intro a ha
    simpa using hv _ hmem a.1 (hown.subset (List.mem_map_of_mem ha))
  | stop | text | raw => rfl

/-- No block but a row has a background image. -/
theorem values_imageKeys_contentTokens (kind : Kind) (props : Members) :
    values imageKeys (contentTokens kind props) = [] := by
  by_cases hkind : kind ∈ plainKinds
  · have hkeys : ∀ kind ∈ plainKinds, ∀ entry ∈ vocabulary kind, ∀ key ∈ entry.2,
        key ∉ imageKeys := by decide +kernel
    exact List.flatMap_eq_nil_iff.2 fun t ht =>
      valuesOf_of_within (within_vocabulary props hkind t ht) (hkeys kind hkind)
  · cases kind with
    | text => simp [contentTokens, textAttributes]
    | html | row | custom => rfl
    | _ => exact absurd (by decide) hkind

/-- Nothing but the content of a text is taken as it is, except in raw markup. -/
theorem raw_contentTokens {kind : Kind} (hkind : kind ≠ .html) (props : Members) :
    ∀ s, .raw s ∈ contentTokens kind props → ∃ rich, s = sanitize rich := by
  intro s hs
  by_cases hplain : kind ∈ plainKinds
  · exact absurd (within_vocabulary props hplain _ hs) id
  · cases kind with
    | text =>
      simp only [contentTokens, List.mem_cons, List.not_mem_nil, or_false, reduceCtorEq, false_or,
        Token.raw.injEq] at hs
      exact ⟨_, hs⟩
    | html => exact absurd rfl hkind
    | row | custom => cases hs
    | _ => exact absurd (by decide) hplain

/-- The links of a block that is no row, and no raw markup, are safe. -/
theorem safeLinks_content (ids : Supply) {kind : Kind} (hhtml : kind ≠ .html)
    (hrow : kind.isRow = false) (props data : Members) :
    SafeLinks (Registry.builtin.render ids kind props data) (innerTokens ids kind props)
      (contentTargets kind (complete ids kind props)) [] :=
  safeLinks_of_values (render_content ids hrow props data) (raw_contentTokens hhtml _)
    (values_contentTokens kind _) (values_imageKeys_contentTokens kind _)

/-! ## Rows -/

/-- The addresses that the blocks of a row give for their links and images. -/
def rowTargets (ids : Supply) (l : RowLayout) : List String :=
  l.columns.flatMap fun c => (innerBlocks c).flatMap fun b =>
    contentTargets b.kind (complete ids b.kind b.props)

/-- The addresses that a row and its columns give for their background images. -/
def rowImages (l : RowLayout) : List (Option String) :=
  l.style.backgroundImage :: l.columns.map fun c => (columnStyle c).backgroundImage

/-- There is no raw markup in a row. -/
def WithoutHtml (l : RowLayout) : Prop := ∀ c ∈ l.columns, ∀ b ∈ c.blocks, b.kind ≠ .html

theorem values_rowTokens {keys : List String} {child : Kind → Members → List Token}
    {own : Column → List String} {l : RowLayout}
    (h : ∀ c index, values keys (columnTokens child l.gap l.columns.length index c) = own c) :
    values keys (rowTokens child l) =
      valuesOf keys (sectionAttributes l.style l.stackOnMobile) ++ l.columns.flatMap own := by
  have hcolumns : l.columns.zipIdx.flatMap (fun x => own x.1) = l.columns.flatMap own := by
    rw [← List.flatMap_map, List.zipIdx_map_fst]
  rw [rowTokens, List.cons_append, values_cons, values_append, values_flatMap, ← hcolumns]
  simp only [h]
  simp

theorem values_columnTokens (keys : List String) (child : Kind → Members → List Token) (gap : Float)
    (total index : Nat) (c : Column) :
    values keys (columnTokens child gap total index c) =
      valuesOf keys (columnAttributes c.width (columnStyle c) gap index total) ++
        (innerBlocks c).flatMap fun b => values keys (child b.kind b.props) := by
  simp [columnTokens, values_flatMap]

theorem valuesOf_backgroundAttributes (address size position : Option String) :
    valuesOf linkKeys (backgroundAttributes address size position) = [] ∧
      valuesOf imageKeys (backgroundAttributes address size position) = address.toList := by
  cases address <;> simp [backgroundAttributes]

theorem valuesOf_sectionAttributes (style : RowStyle) (stackOnMobile : Bool) :
    valuesOf linkKeys (sectionAttributes style stackOnMobile) = [] ∧
      valuesOf imageKeys (sectionAttributes style stackOnMobile) =
        (backgroundImage? style.backgroundImage).toList := by
  simp [sectionAttributes, valuesOf_backgroundAttributes, radiusAttribute]

theorem valuesOf_columnAttributes (width : String) (style : ColumnStyle) (gap : Float)
    (index total : Nat) :
    valuesOf linkKeys (columnAttributes width style gap index total) = [] ∧
      valuesOf imageKeys (columnAttributes width style gap index total) =
        (backgroundImage? style.backgroundImage).toList := by
  simp [columnAttributes, valuesOf_backgroundAttributes, radiusAttribute]

theorem values_linkKeys_row (ids : Supply) (l : RowLayout) :
    values linkKeys (rowTokens (innerTokens ids) l) = (rowTargets ids l).map safeUrl := by
  have hcolumn (c : Column) (index : Nat) :
      values linkKeys (columnTokens (innerTokens ids) l.gap l.columns.length index c) =
        ((innerBlocks c).flatMap fun b =>
          contentTargets b.kind (complete ids b.kind b.props)).map safeUrl := by
    simp [values_columnTokens, valuesOf_columnAttributes, innerTokens, values_contentTokens,
      List.map_flatMap]
  rw [values_rowTokens hcolumn, (valuesOf_sectionAttributes _ _).1, rowTargets, List.map_flatMap]
  rfl

theorem values_imageKeys_row (ids : Supply) (l : RowLayout) :
    values imageKeys (rowTokens (innerTokens ids) l) =
      (rowImages l).filterMap backgroundImage? := by
  have hcolumn (c : Column) (index : Nat) :
      values imageKeys (columnTokens (innerTokens ids) l.gap l.columns.length index c) =
        (backgroundImage? (columnStyle c).backgroundImage).toList := by
    simp [values_columnTokens, valuesOf_columnAttributes, innerTokens,
      values_imageKeys_contentTokens]
  rw [values_rowTokens hcolumn, (valuesOf_sectionAttributes _ _).2, rowImages,
    List.filterMap_eq_flatMap_toList, List.flatMap_cons, List.flatMap_map]

theorem raw_row (ids : Supply) {l : RowLayout} (h : WithoutHtml l) :
    ∀ s, .raw s ∈ rowTokens (innerTokens ids) l → ∃ rich, s = sanitize rich := by
  intro s hs
  simp only [rowTokens, columnTokens, List.mem_append, List.mem_cons, List.not_mem_nil, or_false,
    reduceCtorEq, false_or, List.mem_flatMap, Prod.exists] at hs
  obtain ⟨c, index, hc, b, hb, hs⟩ := hs
  exact raw_contentTokens (h c (List.fst_mem_of_mem_zipIdx hc) b (List.mem_filter.1 hb).1) _ s hs

/-- The links of a row without raw markup are safe, and those of all blocks in it. -/
theorem safeLinks_row (ids : Supply) {l : RowLayout} (h : WithoutHtml l) (data : Members) :
    SafeLinks (rowLayout (Registry.builtin.renderTo ids data 1) l) (rowTokens (innerTokens ids) l)
      (rowTargets ids l) (rowImages l) :=
  safeLinks_of_values (rowLayout_builtin ids data 0 l) (raw_row ids h) (values_linkKeys_row ids l)
    (values_imageKeys_row ids l)

/-! ## Refused background images -/

/-- The attributes that belong to a background image. -/
abbrev backgroundKeys : List String :=
  ["background-url", "background-size", "background-position", "background-repeat"]

/-- A background image is given, and refused. -/
def isRefused (image : Option String) : Bool := image.any fun a => !isSafeUrl a

theorem isSafeUrl_trimText (a : String) : isSafeUrl (Text.trimText a) = isSafeUrl a := by
  rw [isSafeUrl, isSafeUrl, Text.trimText, String.toList_ofList, Text.trim_trim]

theorem backgroundImage?_of_isRefused {image : Option String} (h : isRefused image = true) :
    backgroundImage? image = none := by
  cases image with
  | none => rfl
  | some a =>
    have hunsafe : isSafeUrl a = false := by simpa [isRefused] using h
    simp [backgroundImage?, Option.filter, isSafeUrl_trimText, hunsafe]

/-- The look of a row without a refused image and what belongs to it. -/
def rowStyleWithoutRefused (s : RowStyle) : RowStyle :=
  if isRefused s.backgroundImage then
    { s with backgroundImage := none, backgroundSize := none, backgroundPosition := none }
  else s

/-- The look of a column without a refused image and what belongs to it, as an overlay does. -/
def columnStyleWithoutRefused (s : ColumnStyle) : ColumnStyle :=
  if isRefused s.backgroundImage then
    { s with
      backgroundImage := none, backgroundSize := none, backgroundPosition := none,
      overlayColor := none, overlayOpacity := none }
  else s

/-- The row without refused images. -/
def withoutRefused (l : RowLayout) : RowLayout :=
  { l with
    style := rowStyleWithoutRefused l.style
    columns := l.columns.map fun c => { c with style := c.style.map columnStyleWithoutRefused } }

theorem sectionAttributes_withoutRefused (style : RowStyle) (stackOnMobile : Bool) :
    sectionAttributes (rowStyleWithoutRefused style) stackOnMobile =
      sectionAttributes style stackOnMobile := by
  rw [rowStyleWithoutRefused]
  split
  · rename_i h
    have himage := backgroundImage?_of_isRefused h
    have hnone : backgroundImage? none = none := rfl
    simp [sectionAttributes, himage, hnone, backgroundAttributes]
  · rfl

theorem columnAttributes_withoutRefused (width : String) (style : ColumnStyle) (gap : Float)
    (index total : Nat) :
    columnAttributes width (columnStyleWithoutRefused style) gap index total =
      columnAttributes width style gap index total := by
  rw [columnStyleWithoutRefused]
  split
  · rename_i h
    have himage := backgroundImage?_of_isRefused h
    have hnone : backgroundImage? none = none := rfl
    simp [columnAttributes, columnBackground, himage, hnone, backgroundAttributes]
  · rfl

theorem rowTokens_withoutRefused (child : Kind → Members → List Token) (l : RowLayout) :
    rowTokens child (withoutRefused l) = rowTokens child l := by
  have hcolumn (gap : Float) (total index : Nat) (c : Column) :
      columnTokens child gap total index { c with style := c.style.map columnStyleWithoutRefused } =
        columnTokens child gap total index c := by
    have hattributes :
        columnAttributes c.width
            (columnStyle { c with style := c.style.map columnStyleWithoutRefused }) gap index total =
          columnAttributes c.width (columnStyle c) gap index total := by
      rw [columnStyle, columnStyle]
      cases c.style with
      | none => rfl
      | some style => exact columnAttributes_withoutRefused c.width style gap index total
    rw [columnTokens, columnTokens, hattributes]
    rfl
  rw [rowTokens, rowTokens, withoutRefused, sectionAttributes_withoutRefused]
  simp [List.zipIdx_map, List.flatMap_map, hcolumn]

theorem valuesOf_section_of_isRefused {style : RowStyle}
    (h : isRefused style.backgroundImage = true) (stackOnMobile : Bool) :
    valuesOf backgroundKeys (sectionAttributes style stackOnMobile) = [] := by
  simp [sectionAttributes, backgroundImage?_of_isRefused h, backgroundAttributes, radiusAttribute]

theorem valuesOf_column_of_isRefused {style : ColumnStyle}
    (h : isRefused style.backgroundImage = true) (width : String) (gap : Float)
    (index total : Nat) :
    valuesOf backgroundKeys (columnAttributes width style gap index total) = [] := by
  simp [columnAttributes, backgroundImage?_of_isRefused h, backgroundAttributes, radiusAttribute]

/-- A refused background image leaves no trace in a row: there is no attribute of it, and the row
    is written as without the image, its size and position, and the overlay. -/
structure ShedsRefused (l : RowLayout) : Prop where
  same : ∀ child, rowTokens child (withoutRefused l) = rowTokens child l
  row : isRefused l.style.backgroundImage = true →
    valuesOf backgroundKeys (sectionAttributes l.style l.stackOnMobile) = []
  column : ∀ c ∈ l.columns, isRefused (columnStyle c).backgroundImage = true → ∀ index,
    valuesOf backgroundKeys
      (columnAttributes c.width (columnStyle c) l.gap index l.columns.length) = []

theorem shedsRefused (l : RowLayout) : ShedsRefused l where
  same child := rowTokens_withoutRefused child l
  row h := valuesOf_section_of_isRefused h l.stackOnMobile
  column c _ h index := valuesOf_column_of_isRefused h c.width l.gap index l.columns.length

/-! ## All blocks -/

/-- **Every link is safe**: in content blocks, in rows of any shape with the blocks in them, and so
    in every row that can be read from props.  Only raw markup is not looked at. -/
theorem links_are_safe (ids : Supply) (data : Members) :
    (∀ kind props, kind ≠ .html → kind ≠ .row →
      SafeLinks (Registry.builtin.render ids kind props data) (innerTokens ids kind props)
        (contentTargets kind (complete ids kind props)) []) ∧
    (∀ l, WithoutHtml l →
      SafeLinks (rowLayout (Registry.builtin.renderTo ids data 1) l)
        (rowTokens (innerTokens ids) l) (rowTargets ids l) (rowImages l) ∧ ShedsRefused l) ∧
    ∀ props, Registry.builtin.render ids .row props data =
      (RowLayout.ofMembers? (complete ids .row props)).elim ""
        (rowLayout (Registry.builtin.renderTo ids data 1)) := by
  refine ⟨fun kind props hhtml hrow => ?_, fun l hl => ?_, fun props => ?_⟩
  · exact safeLinks_content ids hhtml (by simpa [Kind.isRow] using hrow) props data
  · exact ⟨safeLinks_row ids hl data, shedsRefused l⟩
  · rw [render_row, row]
    cases RowLayout.ofMembers? (complete ids .row props) <;> rfl

/-- Two refused images are gone, a third one stays, and a refused link becomes `#`, in a row as
    outside of it. -/
theorem links_are_safe_refused :
    let ids : Supply := ⟨fun n => toString n, 0⟩
    let link : Members := [("href", .string " JavaScript:f()")]
    let dark : ColumnStyle :=
      { ColumnStyle.plain with
        backgroundImage := some "javascript:f()", overlayColor := some "#000000" }
    let light : ColumnStyle :=
      { ColumnStyle.plain with backgroundImage := some " https://example.com/bg.png " }
    let l : RowLayout :=
      { preset := .twoEqual
        columns := [⟨"a", "50%", [⟨"x", .button, link⟩], some dark⟩, ⟨"b", "50%", [], some light⟩]
        gap := 10.0
        stackOnMobile := true
        style := { RowStyle.initial with backgroundImage := some "DATA:text/html,x" } }
    let ts := rowTokens (innerTokens ids) l
    Kind.button ≠ .html ∧ Kind.button ≠ .row ∧
      values linkKeys (innerTokens ids .button link) = ["#"] ∧
    WithoutHtml l ∧ isRefused l.style.backgroundImage = true ∧
      values linkKeys ts = ["#"] ∧ values imageKeys ts = ["https://example.com/bg.png"] ∧
      valuesOf backgroundKeys (sectionAttributes l.style l.stackOnMobile) = [] := by
  intro ids link dark light l ts
  obtain ⟨hcontent, hrow, -⟩ := links_are_safe ids []
  have hbutton : Kind.button ≠ .html ∧ Kind.button ≠ .row := by decide
  have hl : WithoutHtml l := by simp [WithoutHtml, l]
  have hrefused : isRefused l.style.backgroundImage = true := by decide
  obtain ⟨hsafe, hshed⟩ := hrow l hl
  have htargets : (contentTargets .button (complete ids .button link)).map safeUrl = ["#"] := by
    decide +kernel
  have hrowTargets : (rowTargets ids l).map safeUrl = ["#"] := by decide +kernel
  have himages : (rowImages l).filterMap backgroundImage? = ["https://example.com/bg.png"] := by
    decide +kernel
  have hlink := (hcontent .button link hbutton.1 hbutton.2).targets.trans htargets
  exact ⟨hbutton.1, hbutton.2, hlink, hl, hrefused, hsafe.targets.trans hrowTargets,
    hsafe.images.trans himages, hshed.row hrefused⟩

end Letterpress.Render
