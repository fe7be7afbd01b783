/-
  What sanitized text holds.

  * `RawTag.rewritten?` is the tag that stands in the place of a tag, `RawAttribute.rewritten?` the
    one of an attribute: what `kept` writes is read back as that (`RawTag.kept_eq`,
    `RawTag.rewritten?_writable`, `RawTag.attributeList_of_rewritten?`).
  * `Seamless html`: no sign outside of the tags opens a tag once the tags behind it are reduced.
  * `tagsIn_sanitize`: the tags of the sanitized text are the rewritten ones, if it is seamless.
    Without that, a removed tag lets what stands on its two sides join into a tag that nobody has
    looked at (`sanitize_forges_tag`).
-/
import Letterpress.Proofs.Markup.Tag

namespace Letterpress.Markup

open Text

/-! ## Attributes -/

theorem notMem_hideQuotes (s : List Char) : '"' ∉ hideQuotes s := by
  rw [hideQuotes, List.mem_flatMap]
  rintro ⟨c, -, hc⟩
  split at hc
  · exact absurd hc (by decide)
  · rename_i h
    exact h (List.mem_singleton.1 hc).symm

/-- Of the characters of a text, only quotes are replaced. -/
theorem notMem_hideQuotes_of_notMem {c : Char} {s : List Char} (hc : c ∉ "&quot;".toList)
    (h : c ∉ s) : c ∉ hideQuotes s := by
  rw [hideQuotes, List.mem_flatMap]
  rintro ⟨d, hd, hcd⟩
  split at hcd
  · exact hc hcd
  · exact h (List.mem_singleton.1 hcd ▸ hd)

namespace RawAttribute

/-- The attribute that stands in the place of an attribute of the element, if it may have one of
    this name. -/
def rewritten? (element : String) (a : RawAttribute) : Option RawAttribute :=
  let name := String.ofList (a.name.map Char.toLower)
  if (allowedAttributes element).contains name then
    let value := a.value.getD []
    let value := if name = "href" then (safeUrl (String.ofList value)).toList else value
    some ⟨name.toList, some (hideQuotes value)⟩
  else none

theorem kept_eq (element : String) (a : RawAttribute) :
    a.kept element = (a.rewritten? element).elim [] text := by
  unfold kept rewritten?
  dsimp only
  split <;> rfl

/-- These are all attributes that any element may have. -/
theorem mem_of_allowed {element name : String} (h : name ∈ allowedAttributes element) :
    name ∈ ["href", "target", "rel", "style"] := by
  unfold allowedAttributes at h
  split at h <;> simp_all
  tauto

theorem writable_name {element name : String} (h : name ∈ allowedAttributes element) :
    (∃ c ∈ name.toList.head?, isNameStart c = true) ∧
      ∀ c ∈ name.toList.tail, isNameChar c = true := by
  have hall : ∀ name ∈ ["href", "target", "rel", "style"],
      (name.toList.head?.any isNameStart && name.toList.tail.all isNameChar) = true := by decide
  have h := hall name (mem_of_allowed h)
  rw [Bool.and_eq_true, Option.any_eq_true, List.all_eq_true] at h
  obtain ⟨⟨c, hc, hstart⟩, hchars⟩ := h
  exact ⟨⟨c, hc, hstart⟩, hchars⟩

variable {element : String} {a b : RawAttribute}

theorem name_of_rewritten? (h : a.rewritten? element = some b) :
    String.ofList b.name ∈ allowedAttributes element := by
  unfold rewritten? at h
  dsimp only at h
  split at h
  · rename_i hname
    cases h
    rw [String.ofList_toList]
    exact List.contains_iff_mem.1 hname
  · cases h

theorem rewritten?_writable (h : a.rewritten? element = some b) : b.Writable := by
  have hname := writable_name (name_of_rewritten? h)
  rw [String.toList_ofList] at hname
  refine ⟨hname.1, hname.2, ?_⟩
  unfold rewritten? at h
  dsimp only at h
  split at h
  · cases h
    exact ⟨_, rfl, notMem_hideQuotes _⟩
  · cases h

/-- The sign that ends a tag comes into no attribute. -/
theorem notMem_text_of_rewritten? (h : a.rewritten? element = some b)
    (ha : ∀ v ∈ a.value, '>' ∉ v) : '>' ∉ b.text := by
  have hvalue : '>' ∉ a.value.getD [] := by
    cases hv : a.value with
    | none => exact List.not_mem_nil
    | some v => exact ha v hv
  have hname : '>' ∉ b.name := by
    obtain ⟨⟨c, hc, hstart⟩, hchars, -⟩ := rewritten?_writable h
    obtain ⟨name, hname⟩ := List.head?_eq_some_iff.1 hc
    rw [hname] at hchars ⊢
    rw [List.mem_cons, not_or]
    constructor
    · rintro rfl
      exact absurd hstart (by decide)
    · intro hmem
      exact absurd (hchars _ hmem) (by decide)
  unfold rewritten? at h
  dsimp only at h
  split at h
  · cases h
    have hshown : ∀ v, '>' ∉ v → '>' ∉ hideQuotes v :=
      fun v => notMem_hideQuotes_of_notMem (by decide)
    have hurl : ∀ v, '>' ∉ v → '>' ∉ (safeUrl (String.ofList v)).toList := by
      intro v hv
      rw [safeUrl]
      split
      · rwa [String.toList_ofList]
      · decide
    simp only [text, List.mem_append, List.mem_cons, not_or]
    refine ⟨⟨⟨⟨by decide, hname⟩, by decide, by decide, List.not_mem_nil⟩, ?_⟩, by decide,
      List.not_mem_nil⟩
    refine hshown _ ?_
    split
    · exact hurl _ hvalue
    · exact hvalue
  · cases h

end RawAttribute

/-! ## Tags -/

namespace RawTag

/-- The tag that stands in the place of a tag, if its element is allowed and it is ended. -/
def rewritten? (t : RawTag) : Option RawTag :=
  let name := String.ofList (t.name.map Char.toLower)
  if !t.ended || !allowedElements.contains name then none
  else if t.closing then some ⟨true, name.toList, [], true⟩
  else
    let attributes := (t.attributeList.filterMap (·.rewritten? name)).flatMap RawAttribute.text
    let slash := if (trimEnd t.attributes).getLast? = some '/' then [' ', '/'] else []
    some ⟨false, name.toList, attributes ++ slash, true⟩

theorem flatMap_kept (element : String) (as : List RawAttribute) :
    as.flatMap (·.kept element) =
      (as.filterMap (·.rewritten? element)).flatMap RawAttribute.text := by
  induction as with
  | nil => rfl
  | cons a as ih =>
    rw [List.flatMap_cons, ih, RawAttribute.kept_eq]
    cases h : a.rewritten? element with
    | none => rw [List.filterMap_cons_none h]; rfl
    | some b => rw [List.filterMap_cons_some h]; rfl

theorem kept_eq (t : RawTag) : t.kept = t.rewritten?.elim [] text := by
  unfold kept rewritten?
  dsimp only
  split
  · rfl
  · split
    · simp [text]
    · rw [flatMap_kept]
      simp [text, attributeList]

theorem writable_name {name : String} (h : name ∈ allowedElements) :
    (∃ c ∈ name.toList.head?, c.isAlpha = true) ∧ ∀ c ∈ name.toList, c.isAlphanum = true := by
  have hall : ∀ name ∈ allowedElements,
      (name.toList.head?.any Char.isAlpha && name.toList.all Char.isAlphanum) = true := by decide
  have h := hall name h
  rw [Bool.and_eq_true, Option.any_eq_true, List.all_eq_true] at h
  obtain ⟨⟨c, hc, hstart⟩, hchars⟩ := h
  exact ⟨⟨c, hc, hstart⟩, hchars⟩

variable {t u : RawTag}

/-- What a rewritten tag is made of: an allowed name and the rewritten attributes, behind which a
    slash may stand. -/
theorem rewritten?_eq_some (h : t.rewritten? = some u) :
    ∃ name ∈ allowedElements, ∃ slash, (slash = [] ∨ slash = [' ', '/']) ∧
      u = ⟨t.closing, name.toList, if t.closing then []
        else (t.attributeList.filterMap (·.rewritten? name)).flatMap RawAttribute.text ++ slash,
        true⟩ := by
  unfold rewritten? at h
  dsimp only at h
  split at h
  · cases h
  · rename_i hname
    rw [Bool.or_eq_true, not_or, Bool.not_eq_true', Bool.not_eq_true', Bool.not_eq_false,
      Bool.not_eq_false] at hname
    refine ⟨_, List.contains_iff_mem.1 hname.2, ?_⟩
    split at h
    · rename_i hclosing
      cases h
      exact ⟨[], .inl rfl, by rw [hclosing, if_pos rfl]⟩
    · rename_i hclosing
      rw [Bool.not_eq_true] at hclosing
      cases h
      refine ⟨_, ?_, by rw [hclosing, if_neg Bool.false_ne_true]⟩
      split <;> simp

theorem rewritten?_writable (h : t.rewritten? = some u) (ht : '>' ∉ t.attributes) :
    u.Writable := by
  obtain ⟨name, hname, slash, hslash, rfl⟩ := rewritten?_eq_some h
  obtain ⟨hstart, hchars⟩ := writable_name hname
  cases t.closing with
  | true => exact ⟨hstart, hchars, by simp, List.not_mem_nil, rfl⟩
  | false =>
    refine ⟨hstart, hchars, ?_, ?_, rfl⟩
    · -- a blank stands before the first attribute, and before the slash
      intro c hc
      rw [if_neg Bool.false_ne_true] at hc
      cases hlist : t.attributeList.filterMap (·.rewritten? name) with
      | nil =>
        rw [hlist, List.flatMap_nil, List.nil_append] at hc
        rcases hslash with rfl | rfl
        · cases hc
        · cases hc
          decide
      | cons a as =>
        rw [hlist, List.flatMap_cons] at hc
        cases hc
        decide
    · rw [if_neg Bool.false_ne_true, List.mem_append, List.mem_flatMap, not_or]
      refine ⟨?_, ?_⟩
      · rintro ⟨b, hb, hmem⟩
        obtain ⟨a, ha, hab⟩ := List.mem_filterMap.1 hb
        exact RawAttribute.notMem_text_of_rewritten? hab (notMem_value ht a ha) hmem
      · rcases hslash with rfl | rfl <;> decide

/-- The attributes of a rewritten tag. -/
theorem attributeList_of_rewritten? (h : t.rewritten? = some u) :
    u.attributeList = if u.closing then []
      else t.attributeList.filterMap (·.rewritten? (String.ofList u.name)) := by
  obtain ⟨name, hname, slash, hslash, rfl⟩ := rewritten?_eq_some h
  rw [attributeList]
  dsimp only
  rw [String.ofList_toList]
  cases t.closing with
  | true => rfl
  | false =>
    refine items_attributesText ?_ ?_
    · intro b hb
      obtain ⟨a, -, hab⟩ := List.mem_filterMap.1 hb
      exact RawAttribute.rewritten?_writable hab
    · rcases hslash with rfl | rfl <;> decide

end RawTag

/-! ## The whole text -/

/-- No sign outside of the tags opens a tag once what stands behind it is reduced. -/
def isSeamless : List (Piece RawTag) → Bool
  | [] => true
  | .item _ :: ps => isSeamless ps
  | .char c :: ps => !(c = '<' && opensTag (substitute RawTag.kept ps)) && isSeamless ps

/-- Nothing that is removed from the text lets its two sides join into a tag. -/
def Seamless (html : String) : Prop :=
  isSeamless (pieces readTag? (withoutHidden html.toList)) = true

instance (html : String) : Decidable (Seamless html) := inferInstanceAs (Decidable (_ = true))

/-- Behind a text, the start of a tag joins with nothing in it. -/
theorem opensTag_append {s rest : List Char} (h : opensTag s = false)
    (hrest : ∀ c ∈ rest.head?, c = '<') : opensTag (s ++ rest) = false := by
  have hsign (rest : List Char) (hrest : ∀ c ∈ rest.head?, c = '<') : opensTag rest = false := by
    cases rest with
    | nil => rfl
    | cons c rest =>
      obtain rfl := hrest c rfl
      rfl
  cases s with
  | nil => exact hsign rest hrest
  | cons c s =>
    by_cases hc : c = '/'
    · subst hc
      cases s with
      | nil =>
        cases rest with
        | nil => rfl
        | cons d rest =>
          obtain rfl := hrest d rfl
          rfl
      | cons d s => exact h
    · rw [opensTag, List.cons_append, afterSlash_cons hc]
      rwa [opensTag, afterSlash_cons hc] at h

/-- The tags of a seamless text are the rewritten ones, before the start of a tag and at the end. -/
theorem tagsIn_substitute_kept {ps : List (Piece RawTag)} (hps : ∀ t ∈ items ps, '>' ∉ t.attributes)
    (h : isSeamless ps = true) {rest : List Char} (hrest : ∀ c ∈ rest.head?, c = '<') :
    tagsIn (substitute RawTag.kept ps ++ rest) =
      (items ps).filterMap RawTag.rewritten? ++ tagsIn rest := by
  induction ps with
  | nil => rfl
  | cons p ps ih =>
    cases p with
    | item t =>
      obtain ⟨ht, hps⟩ := List.forall_mem_cons.1 hps
      have ih := ih hps h
      have hitems : items (.item t :: ps) = t :: items ps := rfl
      rw [substitute_item, RawTag.kept_eq, hitems]
      cases hu : t.rewritten? with
      | none =>
        rw [List.filterMap_cons_none hu]
        exact ih
      | some u =>
        rw [List.filterMap_cons_some hu, Option.elim_some, List.append_assoc,
          tagsIn_of_read (RawTag.rewritten?_writable hu ht), ih, List.cons_append]
    | char c =>
      rw [isSeamless, Bool.and_eq_true] at h
      have hread : readTag? (c :: (substitute RawTag.kept ps ++ rest)) = none := by
        by_cases hc : c = '<'
        · subst hc
          exact readTag?_eq_none_of_opensTag (opensTag_append (by simpa using h.1) hrest)
        · exact readTag?_eq_none_of_ne hc
      have htext : substitute RawTag.kept (.char c :: ps) ++ rest =
          c :: (substitute RawTag.kept ps ++ rest) := rfl
      rw [htext, tagsIn, pieces_cons_of_none hread]
      exact ih hps h.2

/-- The tags of a sanitized text that is seamless, before the start of a tag and at the end. -/
theorem tagsIn_sanitize_append {html : String} (h : Seamless html) {rest : List Char}
    (hrest : ∀ c ∈ rest.head?, c = '<') :
    tagsIn ((sanitize html).toList ++ rest) =
      (tagsIn (withoutHidden html.toList)).filterMap RawTag.rewritten? ++ tagsIn rest := by
  rw [sanitize, String.toList_ofList]
  refine tagsIn_substitute_kept (fun t ht => ?_) h hrest
  obtain ⟨s, rest, -, hread⟩ := exists_read_of_mem_items ht
  exact notMem_of_readTag? hread

/-- The tags of a sanitized text that is seamless. -/
theorem tagsIn_sanitize {html : String} (h : Seamless html) :
    tagsIn (sanitize html).toList =
      (tagsIn (withoutHidden html.toList)).filterMap RawTag.rewritten? := by
  have hend : ∀ c ∈ ([] : List Char).head?, c = '<' := nofun
  have hnone : tagsIn [] = [] := rfl
  rw [← List.append_nil (sanitize html).toList, tagsIn_sanitize_append h hend, hnone,
    List.append_nil]

/-- A tag of an allowed element with no attributes but those that it may have. -/
structure RawTag.Harmless (t : RawTag) : Prop where
  element : String.ofList t.name ∈ allowedElements
  attributes : ∀ a ∈ t.attributeList,
    String.ofList a.name ∈ allowedAttributes (String.ofList t.name)

theorem RawTag.harmless_of_rewritten? {t u : RawTag} (h : t.rewritten? = some u) : u.Harmless := by
  constructor
  case element =>
    obtain ⟨name, hname, slash, hslash, rfl⟩ := rewritten?_eq_some h
    rwa [String.ofList_toList]
  case attributes =>
    intro b hb
    rw [attributeList_of_rewritten? h] at hb
    split at hb
    · cases hb
    · obtain ⟨a, -, hab⟩ := List.mem_filterMap.1 hb
      exact RawAttribute.name_of_rewritten? hab

/-- Every tag that can be read in a sanitized text is harmless, if the text is seamless. -/
theorem harmless_of_mem_sanitize {html : String} (h : Seamless html) :
    ∀ t ∈ tagsIn (sanitize html).toList, t.Harmless := by
  rw [tagsIn_sanitize h]
  intro u hu
  obtain ⟨t, -, htu⟩ := List.mem_filterMap.1 hu
  exact RawTag.harmless_of_rewritten? htu

/-- Elements and handlers go, and a sign that is no tag stays. -/
theorem harmless_of_mem_sanitize_image :
    let html := "1 < 2 <IMG src=x onerror=f()><A HREF='page' onclick=f()>x</A>"
    let link : RawTag := ⟨false, ['a'], " href=\"page\"".toList, true⟩
    Seamless html ∧ sanitize html = "1 < 2 <a href=\"page\">x</a>" ∧
      link ∈ tagsIn (sanitize html).toList ∧ link.Harmless := by
  intro html link
  have hseamless : Seamless html := by decide +kernel
  have hout : sanitize html = "1 < 2 <a href=\"page\">x</a>" := by decide +kernel
  have hlink : link ∈ tagsIn (sanitize html).toList := by
    rw [hout]
    decide +kernel
  exact ⟨hseamless, hout, hlink, harmless_of_mem_sanitize hseamless link hlink⟩

/-- A removed tag between a sign and a name leaves a tag of an element that is not allowed. -/
theorem sanitize_forges_tag :
    ¬ ∀ html, ∀ t ∈ tagsIn (sanitize html).toList, t.Harmless := by
  intro h
  have hscript : ⟨false, "script".toList, [], true⟩ ∈
      tagsIn (sanitize "<<x>script>alert(1)<<x>/script>").toList := by
    decide +kernel
  have helement := (h _ _ hscript).element
  revert helement
  decide

end Letterpress.Markup
