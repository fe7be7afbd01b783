/-
  Rich text that is clean already.

  A clean text is a list of pieces: texts without `<`, and tags of allowed elements in the form in
  which they are kept.  The forms carry what makes them clean, so that every list of pieces is a
  clean text.

  * `cleanText` writes the pieces, one after the other.
  * `CleanTag.kept_raw`: what stays of a clean tag is the tag.
  * `withoutHidden_cleanText`: no comment, script or style is found in a clean text.
  * `sanitize_cleanText`: **a clean text stays as it is.**
-/
import Letterpress.Proofs.Markup.Sanitizer

namespace Letterpress.Markup

open Text

/-! ## Forms -/

/-- An attribute that the element may have, with a value that can stand between double quotes and
    that is safe if it is a link target. -/
structure CleanAttribute (element : String) where
  name : String
  allowed : name ∈ allowedAttributes element
  value : String
  plain : '"' ∉ value.toList ∧ '<' ∉ value.toList ∧ '>' ∉ value.toList
  safe : name = "href" → isSafeUrl value = true

/-- The attribute as it is written: after a blank, with its value in double quotes. -/
def CleanAttribute.text {element : String} (a : CleanAttribute element) : List Char :=
  ' ' :: a.name.toList ++ ['=', '"'] ++ a.value.toList ++ ['"']

/-- A tag of an allowed element. -/
inductive CleanTag where
  | closing (name : String) (allowed : name ∈ allowedElements)
  /-- An opening tag, perhaps with a slash behind its attributes. -/
  | opening (name : String) (allowed : name ∈ allowedElements)
    (attributes : List (CleanAttribute name)) (slash : Bool)

/-- The tag as it is written. -/
def CleanTag.text : CleanTag → List Char
  | .closing name _ => ['<', '/'] ++ name.toList ++ ['>']
  | .opening name _ attributes slash =>
    '<' :: name.toList ++ attributes.flatMap CleanAttribute.text ++
      (if slash then [' ', '/'] else []) ++ ['>']

/-- A piece of a clean text. -/
inductive CleanPiece where
  | text (s : String) (signless : '<' ∉ s.toList)
  | tag (t : CleanTag)

/-- The piece as it is written. -/
def CleanPiece.written : CleanPiece → List Char
  | .text s _ => s.toList
  | .tag t => t.text

/-- The pieces as they are written, one after the other. -/
def cleanText (ps : List CleanPiece) : String := String.ofList (ps.flatMap CleanPiece.written)

/-! ## Attributes -/

theorem hideQuotes_of_notMem {s : List Char} (h : '"' ∉ s) : hideQuotes s = s := by
  induction s with
  | nil => rfl
  | cons c s ih =>
    rw [List.mem_cons, not_or] at h
    have hc : (if c = '"' then "&quot;".toList else [c]) = [c] := if_neg (Ne.symm h.1)
    rw [hideQuotes, List.flatMap_cons, hc]
    exact congrArg (c :: ·) (ih h.2)

theorem map_toLower_attribute {element name : String} (h : name ∈ allowedAttributes element) :
    String.ofList (name.toList.map Char.toLower) = name := by
  have hall : ∀ name ∈ ["href", "target", "rel", "style"],
      String.ofList (name.toList.map Char.toLower) = name := by decide
  exact hall name (RawAttribute.mem_of_allowed h)

namespace CleanAttribute

variable {element : String} (a : CleanAttribute element)

/-- The attribute as it is found in a tag. -/
def raw : RawAttribute := ⟨a.name.toList, some a.value.toList⟩

theorem rewritten?_raw : a.raw.rewritten? element = some a.raw := by
  have hvalue : (if a.name = "href" then (safeUrl a.value).toList else a.value.toList) =
      a.value.toList := by
    split
    · rename_i hname
      rw [safeUrl, if_pos (a.safe hname)]
    · rfl
  simp only [RawAttribute.rewritten?, raw, map_toLower_attribute a.allowed, Option.getD_some,
    String.ofList_toList, hvalue, hideQuotes_of_notMem a.plain.1]
  exact if_pos (List.contains_iff_mem.2 a.allowed)

theorem writable_raw : a.raw.Writable := RawAttribute.rewritten?_writable a.rewritten?_raw

theorem notMem_text {c : Char} (hc : c = '<' ∨ c = '>') : c ∉ a.text := by
  have hname : c ∉ a.name.toList := by
    intro hmem
    obtain ⟨⟨d, hd, hstart⟩, hchars⟩ := RawAttribute.writable_name a.allowed
    obtain ⟨rest, hrest⟩ := List.head?_eq_some_iff.1 hd
    rw [hrest] at hmem hchars
    rcases List.mem_cons.1 hmem with rfl | hmem
    · rcases hc with rfl | rfl <;> exact absurd hstart (by decide)
    · rcases hc with rfl | rfl <;> exact absurd (hchars _ hmem) (by decide)
  have hvalue : c ∉ a.value.toList := by
    rcases hc with rfl | rfl
    · exact a.plain.2.1
    · exact a.plain.2.2
  rcases hc with rfl | rfl <;> simp [text, hname, hvalue]

end CleanAttribute

/-! ## Tags -/

theorem map_toLower_element {name : String} (h : name ∈ allowedElements) :
    String.ofList (name.toList.map Char.toLower) = name := by
  have hall : ∀ name ∈ allowedElements, String.ofList (name.toList.map Char.toLower) = name := by
    decide
  exact hall name h

/-- What stands behind the name of an opening tag. -/
def attributesText {element : String} (as : List (CleanAttribute element)) (slash : Bool) :
    List Char :=
  as.flatMap CleanAttribute.text ++ (if slash then [' ', '/'] else [])

section

variable {element : String} (as : List (CleanAttribute element)) (slash : Bool)

theorem flatMap_text_raw :
    (as.map CleanAttribute.raw).flatMap RawAttribute.text = as.flatMap CleanAttribute.text := by
  rw [List.flatMap_map]
  rfl

theorem notMem_attributesText {c : Char} (hc : c = '<' ∨ c = '>') :
    c ∉ attributesText as slash := by
  rw [attributesText, List.mem_append, List.mem_flatMap, not_or]
  refine ⟨?_, ?_⟩
  · rintro ⟨a, -, hmem⟩
    exact a.notMem_text hc hmem
  · cases slash <;> rcases hc with rfl | rfl <;> decide

/-- The attributes are read as they are. -/
theorem items_attributesText_clean :
    items (pieces readAttribute? (attributesText as slash)) = as.map CleanAttribute.raw := by
  rw [attributesText, ← flatMap_text_raw]
  refine items_attributesText (fun a ha => ?_) ?_
  · obtain ⟨b, -, rfl⟩ := List.mem_map.1 ha
    exact b.writable_raw
  · cases slash <;> decide

/-- A slash is seen exactly if there is one: a quote ends the last attribute. -/
theorem getLast?_trimEnd_attributesText :
    (trimEnd (attributesText as slash)).getLast? = some '/' ↔ slash = true := by
  cases slash with
  | true =>
    have htext : attributesText as true = as.flatMap CleanAttribute.text ++ [' '] ++ ['/'] := by
      simp [attributesText]
    rw [htext, getLast?_trimEnd_concat (by decide)]
    simp
  | false =>
    have htext : attributesText as false = as.flatMap CleanAttribute.text := by
      simp [attributesText]
    rw [htext]
    rcases List.eq_nil_or_concat' as with rfl | ⟨before, a, rfl⟩
    · rw [List.flatMap_nil]
      decide
    · have hquote : (before ++ [a]).flatMap CleanAttribute.text =
          before.flatMap CleanAttribute.text ++
            (' ' :: a.name.toList ++ ['=', '"'] ++ a.value.toList) ++ ['"'] := by
        simp [CleanAttribute.text]
      rw [hquote, getLast?_trimEnd_concat (by decide)]
      decide

end

namespace CleanTag

/-- The tag as it is found in a text. -/
def raw : CleanTag → RawTag
  | .closing name _ => ⟨true, name.toList, [], true⟩
  | .opening name _ as slash => ⟨false, name.toList, attributesText as slash, true⟩

theorem text_raw (t : CleanTag) : t.raw.text = t.text := by
  cases t <;> simp [raw, RawTag.text, text, attributesText]

theorem rewritten?_raw (t : CleanTag) : t.raw.rewritten? = some t.raw := by
  cases t with
  | closing name hname =>
    simp only [RawTag.rewritten?, raw, map_toLower_element hname, List.contains_iff_mem.2 hname]
    rfl
  | opening name hname as slash =>
    have hattributes : (as.map CleanAttribute.raw).filterMap (·.rewritten? name) =
        as.map CleanAttribute.raw := by
      rw [List.filterMap_map, ← List.filterMap_eq_map]
      exact congrArg (List.filterMap · as) (funext fun a => a.rewritten?_raw)
    simp only [RawTag.rewritten?, RawTag.attributeList, raw, map_toLower_element hname,
      List.contains_iff_mem.2 hname, items_attributesText_clean, hattributes, flatMap_text_raw,
      getLast?_trimEnd_attributesText]
    rfl

/-- **What stays of a clean tag** is the tag. -/
theorem kept_raw (t : CleanTag) : t.raw.kept = t.text := by
  rw [RawTag.kept_eq, rewritten?_raw, Option.elim_some, text_raw]

theorem writable_raw (t : CleanTag) : t.raw.Writable := by
  refine RawTag.rewritten?_writable t.rewritten?_raw ?_
  cases t with
  | closing => exact List.not_mem_nil
  | opening name hname as slash => exact notMem_attributesText as slash (.inr rfl)

/-- The sign stands at the start of a tag only. -/
theorem exists_text (t : CleanTag) : ∃ s, t.text = '<' :: s ∧ '<' ∉ s := by
  have hname {name : String} (h : name ∈ allowedElements) : '<' ∉ name.toList := fun hmem =>
    absurd ((RawTag.writable_name h).2 _ hmem) (by decide)
  cases t with
  | closing name h => exact ⟨'/' :: (name.toList ++ ['>']), rfl, by simp [hname h]⟩
  | opening name h as slash =>
    have hattributes := notMem_attributesText as slash (.inl rfl)
    refine ⟨name.toList ++ (attributesText as slash ++ ['>']), by simp [text, attributesText], ?_⟩
    simp [hname h, hattributes]

end CleanTag

/-! ## Where nothing is found -/

/-- A reader that finds nothing where there is no `<`. -/
def ReadsSign {β : Type} (read? : Reader β) : Prop := ∀ c s, c ≠ '<' → read? (c :: s) = none

theorem readsSign_readTag? : ReadsSign readTag? := fun _ _ => readTag?_eq_none_of_ne

theorem readsSign_readComment? : ReadsSign readComment? := by
  intro c s hc
  rw [readComment?, afterStart?, if_neg (Ne.symm hc)]
  rfl

theorem readsSign_readElement? (name : List Char) : ReadsSign (readElement? name) := by
  intro c s hc
  rw [readElement?, afterStart?, if_neg (Ne.symm hc)]
  rfl

theorem ReadsSign.unread {β : Type} {read? : Reader β} (hr : ReadsSign read?) {s : List Char}
    (h : '<' ∉ s) (rest : List Char) : Unread read? s rest := by
  induction s with
  | nil => trivial
  | cons c s ih =>
    rw [List.mem_cons, not_or] at h
    exact ⟨hr c _ (Ne.symm h.1), ih h.2⟩

/-- A reader finds nothing in a clean text if it finds nothing at clean tags. -/
theorem ReadsSign.unread_written {β : Type} {read? : Reader β} (hr : ReadsSign read?)
    (h : ∀ (t : CleanTag) rest, read? (t.text ++ rest) = none) (ps : List CleanPiece)
    (rest : List Char) : Unread read? (ps.flatMap CleanPiece.written) rest := by
  induction ps with
  | nil => trivial
  | cons p ps ih =>
    rw [List.flatMap_cons]
    refine unread_append.2 ⟨?_, ih⟩
    cases p with
    | text s signless => exact hr.unread signless _
    | tag t =>
      -- behind the sign that opens the tag there is no other one
      have hread := h t (ps.flatMap CleanPiece.written ++ rest)
      obtain ⟨s, hs, hsign⟩ := t.exists_text
      rw [CleanPiece.written, hs]
      rw [hs] at hread
      exact ⟨hread, hr.unread hsign _⟩

theorem readComment?_text (t : CleanTag) (rest : List Char) :
    readComment? (t.text ++ rest) = none := by
  obtain ⟨c, s, hs, hc⟩ : ∃ c s, t.text = '<' :: c :: s ∧ c ≠ '!' := by
    cases t with
    | closing name _ => exact ⟨'/', name.toList ++ ['>'], rfl, by decide⟩
    | opening name hname as slash =>
      obtain ⟨c, hc, halpha⟩ := (RawTag.writable_name hname).1
      obtain ⟨name', hname'⟩ := List.head?_eq_some_iff.1 hc
      refine ⟨c, _, by rw [CleanTag.text, hname']; rfl, ?_⟩
      rintro rfl
      exact absurd halpha (by decide)
  rw [hs, readComment?]
  simp [afterStart?, Ne.symm hc]

/-- A word does not follow where another character stands at one of its places. -/
theorem afterWord?_eq_none {w s : List Char} (h : ∃ p ∈ w.zip s, p.1 ≠ foldCase p.2)
    (rest : List Char) : afterWord? w (s ++ rest) = none := by
  induction w generalizing s with
  | nil =>
    obtain ⟨p, hp, -⟩ := h
    cases hp
  | cons x w ih =>
    cases s with
    | nil =>
      obtain ⟨p, hp, -⟩ := h
      cases hp
    | cons c s =>
      rw [List.cons_append, afterWord?]
      split
      · rename_i hx
        obtain ⟨p, hp, hne⟩ := h
        rw [List.zip_cons_cons] at hp
        rcases List.mem_cons.1 hp with rfl | hp
        · exact absurd hx hne
        · exact ih ⟨p, hp, hne⟩
      · rfl

/-- No allowed element starts like a script or a style. -/
theorem readElement?_text {name : List Char} (hname : name ∈ ["script".toList, "style".toList])
    (t : CleanTag) (rest : List Char) : readElement? name (t.text ++ rest) = none := by
  -- each name differs from both words before either of them ends
  have hclash : ∀ w ∈ ["script".toList, "style".toList],
      (∃ p ∈ w.zip ['/'], p.1 ≠ foldCase p.2) ∧
        ∀ e ∈ allowedElements, ∃ p ∈ w.zip e.toList, p.1 ≠ foldCase p.2 := by decide
  obtain ⟨hslash, helement⟩ := hclash name hname
  have hnone : ∃ s, t.text = '<' :: s ∧ afterWord? name (s ++ rest) = none := by
    cases t with
    | closing e _ =>
      exact ⟨'/' :: (e.toList ++ ['>']), rfl, afterWord?_eq_none hslash (e.toList ++ ['>'] ++ rest)⟩
    | opening e he as slash =>
      have hword := afterWord?_eq_none (helement e he) (attributesText as slash ++ ['>'] ++ rest)
      refine ⟨e.toList ++ (attributesText as slash ++ ['>']), by simp [CleanTag.text, attributesText],
        ?_⟩
      rwa [List.append_assoc]
  obtain ⟨s, hs, hword⟩ := hnone
  have hopen : afterStart? ['<'] ('<' :: (s ++ rest)) = some (s ++ rest) :=
    afterStart?_eq_some_iff.2 rfl
  rw [hs, List.cons_append, readElement?, hopen, Option.bind_eq_bind, Option.bind_some, hword]
  rfl

/-! ## The whole text -/

theorem without_of_unread {read? : Reader Unit} {s : List Char} (h : Unread read? s []) :
    without read? s = s := by
  have hpieces := pieces_append_of_unread h
  rw [List.append_nil, pieces_nil, List.append_nil] at hpieces
  rw [without, hpieces, substitute_chars]

/-- **No comment, script or style** is found in a clean text. -/
theorem withoutHidden_cleanText (ps : List CleanPiece) :
    withoutHidden (ps.flatMap CleanPiece.written) = ps.flatMap CleanPiece.written := by
  have hcomment := readsSign_readComment?.unread_written readComment?_text ps []
  have helement {name : List Char} (hname : name ∈ ["script".toList, "style".toList]) :=
    (readsSign_readElement? name).unread_written (readElement?_text hname) ps []
  rw [withoutHidden, without_of_unread hcomment, without_of_unread (helement (by decide)),
    without_of_unread (helement (by decide))]

/-- The tags of a clean text are kept, and so is what stands between them. -/
theorem substitute_kept_written (ps : List CleanPiece) :
    substitute RawTag.kept (pieces readTag? (ps.flatMap CleanPiece.written)) =
      ps.flatMap CleanPiece.written := by
  induction ps with
  | nil => rw [List.flatMap_nil, pieces_nil]; rfl
  | cons p ps ih =>
    rw [List.flatMap_cons]
    cases p with
    | text s signless =>
      have hunread := readsSign_readTag?.unread signless (ps.flatMap CleanPiece.written)
      rw [CleanPiece.written, pieces_append_of_unread hunread, substitute_append, substitute_chars,
        ih]
    | tag t =>
      have hread := readTag?_text t.writable_raw (ps.flatMap CleanPiece.written)
      have hne : t.raw.text ≠ [] := List.cons_ne_nil _ _
      rw [CleanPiece.written, ← t.text_raw, pieces_append_of_read hne hread, substitute_item,
        t.kept_raw, t.text_raw, ih]

/-- **A clean text stays as it is**: nothing of it is lost, moved or written differently. -/
theorem sanitize_cleanText (ps : List CleanPiece) : sanitize (cleanText ps) = cleanText ps := by
  rw [sanitize, cleanText, String.toList_ofList, withoutHidden_cleanText, substitute_kept_written]

/-- Signs, quotes and slashes in texts and values are no part of a tag. -/
example : cleanText
    [.text "1 > 2 &lt; -->" (by decide),
     .tag (.opening "a" (by decide)
       [⟨"href", by decide, "?a='b' c=/", by decide, fun _ => by decide⟩,
        ⟨"rel", by decide, "", by decide, nofun⟩] false),
     .tag (.opening "br" (by decide) [] true), .tag (.closing "a" (by decide))] =
    "1 > 2 &lt; --><a href=\"?a='b' c=/\" rel=\"\"><br /></a>" := by
  decide

end Letterpress.Markup
