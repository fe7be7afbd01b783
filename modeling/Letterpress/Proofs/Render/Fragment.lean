/-
  What props can do to the markup of a block.

  * `vocabulary` has the elements of each kind, with the attributes that they may have.
  * `read_render`: the markup of a heading, an image, a button, a divider, a spacer, a video or of
    social links is read as the tags that its renderer builds.  Props give values and texts, and
    whatever characters these have, they never become tags or attributes.
-/
import Letterpress.Proofs.Render.Tokens

namespace Letterpress.Render

open List (Sublist)
open Markup

/-! ## Vocabularies -/

/-- The elements of headings inside a text. -/
def headingLevels : List String := ["h1", "h2", "h3", "h4", "h5", "h6"]

/-- The kinds whose markup has nothing from the props but values and texts. -/
def plainKinds : List Kind := [.heading, .image, .button, .divider, .spacer, .video, .social]

/-- The elements that blocks of a plain kind are made of, with their attributes. -/
def vocabulary : Kind → Vocabulary
  | .heading =>
    ("mj-text", ["align", "color", "font-size", "font-weight", "line-height", "padding"]) ::
      headingLevels.map fun level => (level, [])
  | .image =>
    [("mj-image",
      ["src", "alt", "href", "width", "align", "fluid-on-mobile", "border-radius", "padding"])]
  | .button =>
    [("mj-button",
      ["href", "background-color", "color", "border", "border-radius", "font-weight", "font-size",
       "inner-padding", "padding", "align", "width"])]
  | .divider =>
    [("mj-divider", ["border-style", "border-color", "border-width", "width", "align", "padding"]),
     ("mj-spacer", ["height"])]
  | .spacer => [("mj-spacer", ["height", "container-background-color"])]
  | .video => [("mj-image", ["src", "alt", "href", "width", "align", "border-radius", "padding"])]
  | .social =>
    [("mj-social", ["align", "icon-size", "mode", "icon-padding", "padding"]),
     ("mj-social-element", ["name", "src", "href", "background-color", "alt", "border-radius"])]
  | .text | .html | .row | .custom _ => []

theorem sound_vocabulary {kind : Kind} (h : kind ∈ plainKinds) : (vocabulary kind).Sound := by
  have hall : ∀ kind ∈ plainKinds, (vocabulary kind).Sound := by decide +kernel
  exact hall kind h

/-! ## Names of attributes -/

theorem keys_given (key : String) (value : Option String) :
    Sublist ((Attributes.given key value).map Prod.fst) [key] := by
  cases value <;> simp [Attributes.given]

/-- An attribute that may be missing, before others. -/
theorem keys_given_append {key : String} {value : Option String} {as : Attributes}
    {keys : List String} (h : Sublist (as.map Prod.fst) keys) :
    Sublist ((Attributes.given key value ++ as).map Prod.fst) (key :: keys) := by
  rw [List.map_append]
  exact (keys_given key value).append h

/-- An attribute that is always there, before others. -/
theorem keys_cons {key value : String} {as : Attributes} {keys : List String}
    (h : Sublist (as.map Prod.fst) keys) :
    Sublist (((key, value) :: as).map Prod.fst) (key :: keys) :=
  h.cons_cons key

theorem keys_imageAttributes (src : String) (props : Members) :
    Sublist ((imageAttributes src props).map Prod.fst)
      ["src", "alt", "href", "width", "align", "fluid-on-mobile", "border-radius", "padding"] := by
  simp only [imageAttributes, List.append_assoc, List.cons_append, List.nil_append]
  exact keys_cons (keys_cons (keys_given_append (keys_given_append (keys_cons
    (keys_given_append (keys_given_append (.refl _)))))))

theorem keys_videoAttributes (thumbnail : String) (props : Members) :
    Sublist ((videoAttributes thumbnail props).map Prod.fst)
      ["src", "alt", "href", "width", "align", "border-radius", "padding"] := by
  simp only [videoAttributes, List.append_assoc, List.cons_append, List.nil_append]
  exact keys_cons (keys_cons (keys_given_append (keys_cons (keys_cons
    (keys_given_append (.refl _))))))

theorem keys_buttonAttributes (props : Members) :
    Sublist ((buttonAttributes props).map Prod.fst)
      ["href", "background-color", "color", "border", "border-radius", "font-weight", "font-size",
       "inner-padding", "padding", "align", "width"] := by
  simp only [buttonAttributes, List.append_assoc, List.cons_append, List.nil_append]
  refine keys_cons (keys_cons (keys_cons (keys_given_append ?_)))
  exact keys_cons (keys_cons (keys_cons (keys_cons (keys_cons (keys_cons (keys_given _ _))))))

theorem keys_socialElementAttributes (style color : String) (link : Members) :
    Sublist ((socialElementAttributes style color link).map Prod.fst)
      ["name", "src", "href", "background-color", "alt", "border-radius"] :=
  keys_cons (keys_cons (keys_cons (keys_cons (keys_cons (keys_given _ _)))))

theorem headingLevel_mem (level : Option String) : headingLevel level ∈ headingLevels := by
  rw [headingLevel]
  cases h : level.filter fun l => ["h2", "h3", "h4", "h5", "h6"].contains l with
  | none => decide
  | some l =>
    have hl : ["h2", "h3", "h4", "h5", "h6"].contains l = true := (Option.filter_eq_some_iff.1 h).2
    exact List.mem_cons_of_mem _ (List.contains_iff_mem.1 hl)

/-! ## Tokens of plain kinds -/

variable (props : Members)

theorem within_heading : ∀ t ∈ headingTokens props, t.Within (vocabulary .heading) := by
  have hlevel : (headingLevel (Props.text? props "level"), []) ∈ vocabulary .heading :=
    List.mem_cons_of_mem _ (List.mem_map_of_mem (headingLevel_mem _))
  simp only [headingTokens, List.forall_mem_cons]
  refine ⟨⟨_, List.mem_cons_self, .refl _⟩, ⟨_, hlevel, .refl _⟩, trivial, ⟨_, hlevel⟩, ?_, ?_⟩
  · exact ⟨_, List.mem_cons_self⟩
  · exact List.forall_mem_nil _

theorem within_social : ∀ t ∈ socialTokens props, t.Within (vocabulary .social) := by
  rw [socialTokens]
  dsimp only
  split
  · exact List.forall_mem_nil _
  · simp only [List.forall_mem_append, List.forall_mem_cons, List.forall_mem_map]
    refine ⟨⟨⟨_, List.mem_cons_self, .refl _⟩, fun link _ => ?_⟩, ⟨_, List.mem_cons_self⟩, ?_⟩
    · exact ⟨_, List.mem_cons_of_mem _ List.mem_cons_self, keys_socialElementAttributes _ _ _⟩
    · exact List.forall_mem_nil _

theorem within_divider : ∀ t ∈ dividerTokens props, t.Within (vocabulary .divider) := by
  rw [dividerTokens]
  split <;> rw [List.forall_mem_singleton]
  · exact ⟨_, List.mem_cons_of_mem _ List.mem_cons_self, .refl _⟩
  · exact ⟨_, List.mem_cons_self, .refl _⟩

/-- A plain block is made of tags of its vocabulary and of texts. -/
theorem within_vocabulary {kind : Kind} (h : kind ∈ plainKinds) :
    ∀ t ∈ contentTokens kind props, t.Within (vocabulary kind) := by
  cases kind with
  | heading => exact within_heading props
  | image =>
    rw [contentTokens]
    cases Props.nonEmpty? props "src" with
    | none => exact List.forall_mem_nil _
    | some src =>
      exact List.forall_mem_singleton.2 ⟨_, List.mem_cons_self, keys_imageAttributes src props⟩
  | button =>
    simp only [contentTokens, List.forall_mem_cons]
    exact ⟨⟨_, List.mem_cons_self, keys_buttonAttributes props⟩, trivial, ⟨_, List.mem_cons_self⟩,
      List.forall_mem_nil _⟩
  | divider => exact within_divider props
  | spacer =>
    exact List.forall_mem_singleton.2 ⟨_, List.mem_cons_self, keys_cons (keys_given _ _)⟩
  | video =>
    rw [contentTokens]
    cases thumbnail? props with
    | none => exact List.forall_mem_nil _
    | some thumbnail =>
      exact List.forall_mem_singleton.2
        ⟨_, List.mem_cons_self, keys_videoAttributes thumbnail props⟩
  | social => exact within_social props
  | text | html | row | custom => simp [plainKinds] at h

theorem foldlM_enter_icons (opened : List String) (style color : String) (links : List Members) :
    (links.map (iconToken style color)).foldlM Token.enter opened = some opened := by
  induction links with
  | nil => rfl
  | cons link links ih => exact ih

/-- The elements of a plain block are closed, in order. -/
theorem nested_contentTokens {kind : Kind} (h : kind ∈ plainKinds) :
    (contentTokens kind props).foldlM Token.enter [] = some [] := by
  cases kind with
  | heading => simp [contentTokens, headingTokens, Token.enter]
  | image => rw [contentTokens]; cases Props.nonEmpty? props "src" <;> rfl
  | button | spacer => rfl
  | divider => rw [contentTokens, dividerTokens]; split <;> rfl
  | video => rw [contentTokens]; cases thumbnail? props <;> rfl
  | social =>
    rw [contentTokens, socialTokens]
    dsimp only
    split
    · rfl
    · rw [List.foldlM_append]
      simp [Token.enter, foldlM_enter_icons]
  | text | html | row | custom => simp [plainKinds] at h

/-! ## Reading fragments -/

/-- **Props cannot break out of the markup.**  The markup of a plain block is read as the tags that
    its renderer builds, with the attributes that have a value, in order, and every value and every
    text is what was given.  It is well-formed, and all names are those of the kind. -/
theorem read_render {kind : Kind} (h : kind ∈ plainKinds) (ids : Supply) (props data : Members) :
    let ts := shown (contentTokens kind (complete ids kind props))
    read (Registry.builtin.render ids kind props data) = some ts ∧ WellFormed ts ∧
      ∀ t ∈ ts, t.Within (vocabulary kind) := by
  intro ts
  have hsound := sound_vocabulary h
  have hwithin := within_vocabulary (complete ids kind props) h
  have hrow : kind.isRow = false := by
    have hall : ∀ kind ∈ plainKinds, kind.isRow = false := by decide
    exact hall kind h
  refine ⟨?_, WellFormed.shown ⟨nested_contentTokens _ h, fun t ht => ?_⟩, within_shown hwithin⟩
  · rw [render_eq_writeAll, blockTokens, if_neg (by simp [hrow])]
    exact read_writeAll fun t ht => (hwithin t ht).readable hsound
  · exact (hwithin t ht).distinct hsound

/-- Texts that look like markup, in the values and in the content of a heading, stay what they
    are, and an attribute without a value is left out. -/
theorem read_render_hostile :
    let ids : Supply := ⟨fun n => toString n, 0⟩
    let props : Members :=
      [("align", .string "\"><b href='x"), ("color", .string ""),
       ("content", .string "</h2>&lt;'<i>"), ("fontSize", .string "><"), ("level", .string "h2"),
       ("lineHeight", .bool true), ("padding", .string "\" />")]
    let ts : List Token :=
      [.start "mj-text" [("align", "\"><b href='x"), ("font-size", "24px"), ("font-weight", "700"),
        ("line-height", "true"), ("padding", "\" />")],
       .start "h2" [], .text "</h2>&lt;'<i>", .stop "h2", .stop "mj-text"]
    .heading ∈ plainKinds ∧ read (Registry.builtin.render ids .heading props []) = some ts ∧
      WellFormed ts ∧ ∀ t ∈ ts, t.Within (vocabulary .heading) := by
  intro ids props ts
  have hkind : .heading ∈ plainKinds := by decide
  have hts : shown (contentTokens .heading (complete ids .heading props)) = ts := by decide +kernel
  have h := read_render hkind ids props []
  dsimp only at h
  rw [hts] at h
  exact ⟨hkind, h⟩

end Letterpress.Render
