/-
  What settings can do to a document.

  * `frameTokens` are the tags and texts that the frame of a page is meant to be made of, with the
    settings as values; `sectionTokens` are the tags around content blocks.
  * `Setup.settings_read_back_iff`: **settings stay values if and only if they are inert.**  Unlike
    the values of blocks and the preview, they are written as they are.
-/
import Letterpress.Proofs.Markup.Value
import Letterpress.Proofs.Render.Sections

namespace Letterpress.Render

open Markup

/-! ## What is meant -/

/-- The preview. -/
def previewTokens (preview : String) : List Token :=
  [.start "mj-preview" [], .text preview, .stop "mj-preview"]

/-- The page down to the value of the font. -/
def openingTokens : List Token :=
  [.start "mjml" [], .text "\n  ", .start "mj-head" [], .text "\n    ",
   .start "mj-attributes" [], .text "\n      "]

/-- The head of the page behind the font, down to the style sheet. -/
def styleTokens : List Token :=
  [.text "\n      ",
   .empty "mj-text" [("font-size", "16px"), ("color", "#333333"), ("line-height", "1.5")],
   .text "\n      ", .empty "mj-section" [("padding", "0")], .text "\n    ",
   .stop "mj-attributes", .text "\n    ", .start "mj-style" []]

/-- The end of the head, with the preview if there is one. -/
def headEndTokens (preview : Option String) : List Token :=
  match preview.filter fun p => !p.isEmpty with
  | some p => .text "\n    " :: previewTokens p ++ [.text "\n  ", .stop "mj-head", .text "\n  "]
  | none => [.text "\n    \n  ", .stop "mj-head", .text "\n  "]

/-- The page down to the body, with the settings as values. -/
def frameTokens (settings : Settings) (preview : Option String) : List Token :=
  openingTokens ++ .empty "mj-all" [("font-family", settings.fontFamily)] ::
    (styleTokens ++ .text styleSheet :: .stop "mj-style" :: (headEndTokens preview ++
      [.start "mj-body" [("background-color", settings.backgroundColor),
        ("width", toString settings.contentWidth ++ "px")]]))

/-- The start of the section around content blocks. -/
def sectionTokens (background : String) : List Token :=
  [.start "mj-section" [("background-color", background), ("padding", "0")],
   .start "mj-column" []]

/-! ## Texts of a page -/

/-- The page down to the value of the font. -/
def opening : String := String.intercalate "\n"
  ["<mjml>", "  <mj-head>", "    <mj-attributes>", "      <mj-all font-family=\""]

/-- The head of the page behind the font, down to the style sheet. -/
def styleStart : String := String.intercalate "\n"
  ["", "      <mj-text font-size=\"16px\" color=\"#333333\" line-height=\"1.5\" />",
   "      <mj-section padding=\"0\" />", "    </mj-attributes>", "    <mj-style>"]

/-- The end of the style sheet, down to the preview. -/
def styleEnd : String := String.intercalate "\n" ["</mj-style>", "    "]

/-- The page behind the preview, down to the value of the background. -/
def headEnd : String := String.intercalate "\n"
  ["", "  </mj-head>", "  <mj-body background-color=\""]

/-- The page behind the tag of the body. -/
def bodyAndEnd (body : String) : String := String.intercalate "\n"
  ["", "    " ++ body, "  </mj-body>", "</mjml>"]

theorem page_eq (body : String) (settings : Settings) (preview : Option String) :
    page body settings preview =
      opening ++ settings.fontFamily ++ "\" />" ++ styleStart ++ styleSheet ++ styleEnd ++
        previewElement preview ++ headEnd ++ settings.backgroundColor ++ "\" width=\"" ++
        toString settings.contentWidth ++ "px\">" ++ bodyAndEnd body := by
  simp only [page, opening, styleStart, styleEnd, headEnd, bodyAndEnd,
    String.intercalate_cons_cons, String.intercalate_singleton, String.append_assoc,
    String.empty_append]

theorem all_intercalate {p : Char → Bool} {sep : String} {parts : List String}
    (hsep : sep.toList.all p = true) (hparts : parts.all (fun s => s.toList.all p) = true) :
    (String.intercalate sep parts).toList.all p = true := by
  induction parts with
  | nil => simp
  | cons s parts ih =>
    rw [List.all_cons, Bool.and_eq_true] at hparts
    cases parts with
    | nil => rw [String.intercalate_singleton, hparts.1]
    | cons t parts =>
      rw [String.intercalate_cons_cons, String.toList_append, String.toList_append,
        List.all_append, List.all_append, hparts.1, hsep, ih hparts.2]
      rfl

/-- The style sheet is a text without tags and references. -/
theorem plain_styleSheet : ∀ c ∈ styleSheet.toList, c ≠ '<' ∧ c ≠ '&' := by
  have hall : styleSheet.toList.all (fun c => c != '<' && c != '&') = true :=
    all_intercalate (by decide +kernel) (by decide +kernel)
  simpa [List.all_eq_true] using hall

theorem styleSheet_ne_empty : styleSheet ≠ "" := by
  rw [styleSheet, String.intercalate_cons_cons, ne_eq, String.append_eq_empty_iff]
  exact fun h => absurd h.1 (by decide)

/-! ## Reading a page -/

section

variable {n : String} {as : Attributes} {rest seen : List Char}

theorem passAll_opening : (Mode.text []).passAll opening.toList =
    some (openingTokens, .value "mj-all" [] "font-family".toList []) := by decide +kernel

theorem passAll_styleStart :
    (Mode.text []).passAll styleStart.toList = some (styleTokens, .text []) := by decide +kernel

theorem passAll_styleEnd : (Mode.text seen).passAll styleEnd.toList =
    some (textToken (decode seen) ++ [.stop "mj-style"], .text "\n    ".toList) := by
  have htext : styleEnd.toList = "</mj-style>\n    ".toList := by decide +kernel
  rw [htext]
  rfl

/-- The style sheet and what stands around it are read the same way behind every tag. -/
theorem through_style :
    (Mode.after n as).through
        (" />".toList ++ (styleStart.toList ++ (styleSheet.toList ++ (styleEnd.toList ++ rest)))) =
      .empty n as :: (styleTokens ++ .text styleSheet :: .stop "mj-style" ::
        (Mode.text "\n    ".toList).through rest) := by
  have hempty : (Mode.after n as).passAll " />".toList = some ([.empty n as], .text []) := rfl
  have hsheet : (Mode.text []).passAll styleSheet.toList = some ([], .text styleSheet.toList) :=
    Mode.passAll_text fun c hc => (plain_styleSheet c hc).1
  have hmeaning : decode styleSheet.toList = styleSheet.toList :=
    decode_of_notMem fun h => (plain_styleSheet _ h).2 rfl
  rw [Mode.through_append hempty, Mode.through_append passAll_styleStart,
    Mode.through_append hsheet, Mode.through_append passAll_styleEnd, hmeaning,
    textToken_toList styleSheet_ne_empty]
  rfl

/-- The preview is read as what was given. -/
theorem through_preview {p : String} (hp : p ≠ "") :
    (Mode.text seen).through ((previewElement (some p)).toList ++ rest) =
      textToken (decode seen) ++ (previewTokens p ++ (Mode.text []).through rest) := by
  have helement : (previewElement (some p)).toList =
      "<mj-preview>".toList ++ (escapeText p.toList ++ "</mj-preview>".toList) := by
    have hfilter : (some p).filter (fun p => !p.isEmpty) = some p := by simp [hp]
    rw [previewElement, hfilter]
    simp
  have hopen : (Mode.text seen).passAll "<mj-preview>".toList =
      some (textToken (decode seen) ++ [.start "mj-preview" []], .text []) := rfl
  have hescape : (Mode.text []).passAll (escapeText p.toList) =
      some ([], .text (escapeText p.toList)) := Mode.passAll_text fun c hc => mem_escapeText hc
  have hclose (seen : List Char) : (Mode.text seen).passAll "</mj-preview>".toList =
      some (textToken (decode seen) ++ [.stop "mj-preview"], .text []) := rfl
  rw [helement, List.append_assoc, List.append_assoc, Mode.through_append hopen,
    Mode.through_append hescape, Mode.through_append (hclose _), decode_escapeText,
    textToken_toList hp, List.append_assoc]
  rfl

theorem passAll_headEnd : (Mode.text []).passAll headEnd.toList =
    some ([.text "\n  ", .stop "mj-head", .text "\n  "],
      .value "mj-body" [] "background-color".toList []) := by decide +kernel

/-- The head ends as it is meant to, whatever the preview is. -/
theorem through_headEnd (preview : Option String) :
    (Mode.text "\n    ".toList).through
        ((previewElement preview).toList ++ (headEnd.toList ++ rest)) =
      headEndTokens preview ++
        (Mode.value "mj-body" [] "background-color".toList []).through rest := by
  cases hpreview : preview.filter fun p => !p.isEmpty with
  | none =>
    have helement : previewElement preview = "" := by rw [previewElement, hpreview]
    have htokens : headEndTokens preview = [.text "\n    \n  ", .stop "mj-head", .text "\n  "] := by
      rw [headEndTokens, hpreview]
    have hread : (Mode.text "\n    ".toList).passAll headEnd.toList =
        some ([.text "\n    \n  ", .stop "mj-head", .text "\n  "],
          .value "mj-body" [] "background-color".toList []) := by decide +kernel
    rw [helement, htokens]
    exact Mode.through_append hread
  | some p =>
    obtain ⟨rfl, hp⟩ := Option.filter_eq_some_iff.1 hpreview
    have htokens : headEndTokens (some p) = .text "\n    " :: (previewTokens p ++
        [.text "\n  ", .stop "mj-head", .text "\n  "]) := by
      rw [headEndTokens, hpreview]
      rfl
    have hspace : textToken (decode "\n    ".toList) = [.text "\n    "] := by decide +kernel
    rw [through_preview (by simpa using hp), Mode.through_append passAll_headEnd, htokens, hspace]
    simp

/-- A width is made of digits. -/
theorem inert_width (width : Nat) : Inert (toString width ++ "px") := by
  have hchars : ∀ c ∈ (toString width ++ "px").toList, c.isAlphanum = true := by
    rw [Nat.toString_eq_repr, String.toList_append, Nat.toList_repr, List.forall_mem_append]
    refine ⟨fun c hc => ?_, by simp⟩
    simp [Char.isAlphanum, Nat.isDigit_of_mem_toDigits (by decide) (by decide) hc]
  exact .of_notMem (fun h => absurd (hchars _ h) (by decide))
    fun h => absurd (hchars _ h) (by decide)

/-- Behind the background, the width is read, and then the tag is complete. -/
theorem through_width (width : Nat) :
    (Mode.after n as).through
        (" width=\"".toList ++ ((toString width ++ "px").toList ++ '"' :: '>' :: rest)) =
      .start n (as ++ [("width", toString width ++ "px")]) :: (Mode.text []).through rest := by
  have hkey : (Mode.after n as).passAll " width=\"".toList =
      some ([], .value n as "width".toList []) := rfl
  rw [Mode.through_append hkey, List.nil_append, Mode.through_inert (inert_width width)]
  rfl

/-! ## Settings as values -/

/-- The frame of a page is what it is meant to be exactly if its two settings are inert. -/
theorem prefix_frameTokens_iff (body : String) (settings : Settings) (preview : Option String) :
    frameTokens settings preview <+: tokensOf (page body settings preview) ↔
      Inert settings.fontFamily ∧ Inert settings.backgroundColor := by
  obtain ⟨font, background, content, width⟩ := settings
  have htext : (page body ⟨font, background, content, width⟩ preview).toList =
      opening.toList ++ (font.toList ++ '"' :: (" />".toList ++ (styleStart.toList ++
        (styleSheet.toList ++ (styleEnd.toList ++ ((previewElement preview).toList ++
          (headEnd.toList ++ (background.toList ++ '"' :: (" width=\"".toList ++
            ((toString width ++ "px").toList ++
              '"' :: '>' :: (bodyAndEnd body).toList)))))))))) := by
    rw [page_eq]
    simp
  have hfont : [] ++ [("font-family", font)] <+:
      (Token.empty "mj-all" [("font-family", font)]).attributes := List.prefix_rfl
  have hbackground : [] ++ [("background-color", background)] <+:
      (Token.start "mj-body" [("background-color", background),
        ("width", toString width ++ "px")]).attributes := ⟨_, rfl⟩
  -- token by token, the two sides differ at most where a setting is read as a value
  rw [tokensOf, htext, Mode.through_append passAll_opening, frameTokens,
    List.prefix_append_right_inj, prefix_value_iff hfont, through_style, List.nil_append,
    List.cons_prefix_cons, List.prefix_append_right_inj, List.cons_prefix_cons,
    List.cons_prefix_cons, through_headEnd, List.prefix_append_right_inj,
    prefix_value_iff hbackground, through_width, List.nil_append]
  simp

/-- The section around content blocks starts as it is meant to exactly if its background is
    inert. -/
theorem prefix_sectionTokens_iff {background content : String} (hcontent : content ≠ "")
    (rest : String) :
    sectionTokens background <+: tokensOf (contentSection background content ++ rest) ↔
      Inert background := by
  have hsection : contentSection background content =
      "<mj-section background-color=\"" ++ background ++ "\" padding=\"0\"><mj-column>" ++
        content ++ "</mj-column></mj-section>" := by
    rw [contentSection, if_neg (by simpa using hcontent)]
  have htext : (contentSection background content ++ rest).toList =
      "<mj-section background-color=\"".toList ++ (background.toList ++ '"' ::
        (" padding=\"0\"><mj-column>".toList ++
          (content ++ "</mj-column></mj-section>" ++ rest).toList)) := by
    rw [hsection]
    simp
  have hopen : (Mode.text []).passAll "<mj-section background-color=\"".toList =
      some ([], .value "mj-section" [] "background-color".toList []) := by decide +kernel
  have hclose (as : Attributes) :
      (Mode.after "mj-section" as).passAll " padding=\"0\"><mj-column>".toList =
        some ([.start "mj-section" (as ++ [("padding", "0")]), .start "mj-column" []], .text []) :=
    rfl
  have hbackground : [] ++ [("background-color", background)] <+:
      (Token.start "mj-section" [("background-color", background), ("padding", "0")]).attributes :=
    ⟨_, rfl⟩
  rw [tokensOf, htext, Mode.through_append hopen, List.nil_append, sectionTokens,
    prefix_value_iff hbackground, Mode.through_append (hclose _)]
  simp

/-- The preview stays a text. -/
theorem prefix_previewTokens {preview : String} (h : preview ≠ "") (rest : String) :
    previewTokens preview <+: tokensOf (previewElement (some preview) ++ rest) := by
  have hnone : textToken (decode []) = [] := rfl
  rw [tokensOf, String.toList_append, through_preview h, hnone]
  exact ⟨_, rfl⟩

end

namespace Setup

/-- **Settings stay values if and only if they are inert.**  A document is a page around the strips
of its blocks.  The frame of a page, whatever is in it, is read as it is meant to be, with the font
and the background as the values of their attributes and with no tag and no attribute more, exactly
if these two settings are inert; each section around content blocks that are written starts as it is
meant to exactly if the background of the content is inert.  The preview stays a text in all cases,
whatever its characters are.  All this holds for any blocks and renderers. -/
theorem settings_read_back_iff (s : Setup) (blocks : List Block) (settings : Settings)
    (preview : Option String) (data : Members) :
    let background := settings.contentBackgroundColor
    let text := Strip.text (fun b => s.registry.renderBlock s.ids b data) background
    s.document blocks settings preview data =
        page (String.join ((strips blocks).map text)) settings preview ∧
      (∀ body, frameTokens settings preview <+: tokensOf (page body settings preview) ↔
        Inert settings.fontFamily ∧ Inert settings.backgroundColor) ∧
      (∀ run, .run run ∈ strips blocks → text (.run run) ≠ "" → ∀ rest,
        (sectionTokens background <+: tokensOf (text (.run run) ++ rest) ↔ Inert background)) ∧
      ∀ p ∈ preview, p ≠ "" → ∀ rest,
        previewTokens p <+: tokensOf (previewElement preview ++ rest) := by
  intro background text
  refine ⟨?_, fun body => prefix_frameTokens_iff body settings preview,
    fun run _ htext rest => ?_, ?_⟩
  · exact congrArg (fun body => page body settings preview) (sections_eq _ background blocks)
  · refine prefix_sectionTokens_iff (fun hempty => htext ?_) rest
    simp only [text, Strip.text, hempty]
    rfl
  · rintro p ⟨⟩ hp rest
    exact prefix_previewTokens hp rest

/-- The quote before the name of a font ends the attribute, and no markup can be read behind it. -/
theorem not_frameTokens_of_quoted_font :
    let s : Setup :=
      { registry := .builtin, processor := ⟨[], .builtin⟩, compiler := fun s => .ok s,
        defaults := .initial, ids := ⟨fun _ => "", 0⟩ }
    let settings : Settings := { Settings.initial with fontFamily := "\"Open Sans\", sans-serif" }
    let document := s.document [] settings none []
    tokensOf document = openingTokens ∧ ¬ frameTokens settings none <+: tokensOf document := by
  intro s settings document
  have hdocument : document = page "" settings none := rfl
  rw [hdocument]
  constructor
  · have hfont : settings.fontFamily.toList = '"' :: 'O' :: "pen Sans\", sans-serif".toList := by
      decide +kernel
    have hend (rest : List Char) : (Mode.value "mj-all" [] "font-family".toList []).through
        ('"' :: 'O' :: rest) = [] := rfl
    rw [tokensOf, page_eq]
    simp only [String.append_assoc]
    rw [String.toList_append, Mode.through_append passAll_opening, String.toList_append, hfont,
      List.cons_append, List.cons_append, hend, List.append_nil]
  · rw [prefix_frameTokens_iff]
    decide +kernel

end Setup

end Letterpress.Render
