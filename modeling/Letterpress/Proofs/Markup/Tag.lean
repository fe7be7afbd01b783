/-
  Tags and attributes that are written are read back.

  * `RawAttribute.text` and `RawTag.text` are an attribute with its value in double quotes and a tag
    as they are written; `Writable` says which of them are read back.
  * `tagsIn` lists the tags that can be read in a text, `RawTag.attributeList` the attributes of a
    tag.
  * `items_attributesText` reads attributes back, `readTag?_text` a tag, whatever follows.
  * `RawTag.Matched t rest`: a tag is one of a text when `rest` follows it, as all tags are that are
    read (`matched_of_readTag?`).
  * `RawTag.element` is the name of a tag with the parts behind its hyphens; `RawTag.ofText` is the
    tag that is read from a text between `<` and `>`.
-/
import Letterpress.Markup.Sanitizer
import Letterpress.Proofs.Text.Cutting

namespace Letterpress.Markup

open Text

/-! ## Reading -/

/-- The tags that can be read in a text, from left to right. -/
def tagsIn (s : List Char) : List RawTag := items (pieces readTag? s)

/-- The attributes of a tag. -/
def RawTag.attributeList (t : RawTag) : List RawAttribute :=
  items (pieces readAttribute? t.attributes)

/-! ## Attributes -/

namespace RawAttribute

/-- The attribute after a space, with its value in double quotes. -/
def text (a : RawAttribute) : List Char :=
  ' ' :: a.name ++ ['=', '"'] ++ a.value.getD [] ++ ['"']

/-- An attribute that is read back from its text. -/
structure Writable (a : RawAttribute) : Prop where
  start : ∃ c ∈ a.name.head?, isNameStart c = true
  name : ∀ c ∈ a.name.tail, isNameChar c = true
  value : ∃ v ∈ a.value, '"' ∉ v

end RawAttribute

theorem readAssigned?_quoted {v rest : List Char} (hv : '"' ∉ v) :
    readAssigned? ('=' :: '"' :: (v ++ '"' :: rest)) = some (v, rest) := by
  have hafter (s : List Char) : afterStart? ['='] ('=' :: s) = some s :=
    afterStart?_eq_some_iff.2 rfl
  rw [readAssigned?, trimStart_cons (by decide), hafter, Option.bind_eq_bind, Option.bind_some,
    trimStart_cons (by decide)]
  exact splitOnce_append_cons hv

theorem readAttribute?_eq_none {c : Char} {s : List Char} (h : isNameStart c = false) :
    readAttribute? (c :: s) = none := by
  rw [readAttribute?, if_neg (by rw [h]; exact Bool.false_ne_true)]

/-- A written attribute is a space and an item. -/
theorem pieces_attributeText {a : RawAttribute} (ha : a.Writable) (rest : List Char) :
    pieces readAttribute? (a.text ++ rest) =
      .char ' ' :: .item a :: pieces readAttribute? rest := by
  obtain ⟨name, value⟩ := a
  obtain ⟨⟨c, hc, hstart⟩, hname, ⟨v, hvalue, hv⟩⟩ := ha
  cases name with
  | nil => cases hc
  | cons d name =>
    cases hc
    cases hvalue
    have htext : RawAttribute.text ⟨c :: name, some v⟩ ++ rest =
        ' ' :: (c :: (name ++ '=' :: '"' :: (v ++ '"' :: rest))) := by
      simp [RawAttribute.text]
    have hread : readAttribute? (c :: (name ++ '=' :: '"' :: (v ++ '"' :: rest))) =
        some (⟨c :: name, some v⟩, rest) := by
      have hspan : (name ++ '=' :: '"' :: (v ++ '"' :: rest)).span isNameChar =
          (name, '=' :: '"' :: (v ++ '"' :: rest)) := by
        refine span_append hname fun d hd => ?_
        cases hd
        decide
      rw [readAttribute?, if_pos hstart, hspan]
      simp only [readAssigned?_quoted hv]
    have hcut : c :: (name ++ '=' :: '"' :: (v ++ '"' :: rest)) =
        (c :: name ++ '=' :: '"' :: (v ++ ['"'])) ++ rest := by simp
    rw [htext, pieces_cons_of_none (readAttribute?_eq_none (by decide)), hcut]
    rw [hcut] at hread
    rw [pieces_append_of_read (by simp) hread]

/-- Written attributes are read back, before what has none. -/
theorem items_attributesText {as : List RawAttribute} (h : ∀ a ∈ as, a.Writable)
    {rest : List Char} (hrest : items (pieces readAttribute? rest) = []) :
    items (pieces readAttribute? (as.flatMap RawAttribute.text ++ rest)) = as := by
  induction as with
  | nil => exact hrest
  | cons a as ih =>
    obtain ⟨ha, has⟩ := List.forall_mem_cons.1 h
    rw [List.flatMap_cons, List.append_assoc, pieces_attributeText ha]
    exact congrArg (a :: ·) (ih has)

theorem value_subset_of_readValue? {s v rest : List Char} (h : readValue? s = some (v, rest)) :
    v ⊆ s := by
  unfold readValue? at h
  split at h
  · rw [splitOnce_eq_some h]
    simp
  · rw [splitOnce_eq_some h]
    simp
  · rw [List.span_eq_takeWhile_dropWhile] at h
    dsimp only at h
    split at h
    · cases h
    · cases h
      exact (List.takeWhile_prefix _).subset

theorem value_subset_of_readAssigned? {s v rest : List Char}
    (h : readAssigned? s = some (v, rest)) : v ⊆ s := by
  obtain ⟨t, ht, hv⟩ := Option.bind_eq_some_iff.1 h
  have htail : t ⊆ trimStart s := by
    rw [afterStart?_eq_some_iff.1 ht]
    exact List.subset_append_right _ _
  calc v ⊆ trimStart t := value_subset_of_readValue? hv
    _ ⊆ t := trimStart_subset t
    _ ⊆ trimStart s := htail
    _ ⊆ s := trimStart_subset s

/-- A value is part of the text that it is read from. -/
theorem value_subset_of_readAttribute? {s rest : List Char} {a : RawAttribute}
    (h : readAttribute? s = some (a, rest)) : ∀ v ∈ a.value, v ⊆ s := by
  cases s with
  | nil => cases h
  | cons c s =>
    rw [readAttribute?, List.span_eq_takeWhile_dropWhile] at h
    split at h
    · dsimp only at h
      split at h
      · rename_i value rest hvalue
        cases h
        intro v hv d hd
        cases hv
        have hrest := value_subset_of_readAssigned? hvalue hd
        exact List.mem_cons_of_mem c ((List.dropWhile_suffix _).subset hrest)
      · cases h
        rintro v ⟨⟩
    · cases h

/-- What does not stand between the name of a tag and its end is in no value of its attributes. -/
theorem RawTag.notMem_value {t : RawTag} {c : Char} (h : c ∉ t.attributes) :
    ∀ a ∈ t.attributeList, ∀ v ∈ a.value, c ∉ v := by
  intro a ha v hv hmem
  obtain ⟨s, rest, hs, hread⟩ := exists_read_of_mem_items ha
  exact h (hs.subset (value_subset_of_readAttribute? hread v hv hmem))

/-! ## Tags -/

namespace RawTag

/-- The tag as it is written. -/
def text (t : RawTag) : List Char :=
  '<' :: (if t.closing then ['/'] else []) ++ t.name ++ t.attributes ++
    (if t.ended then ['>'] else [])

/-- A tag that is read back from its text. -/
structure Writable (t : RawTag) : Prop where
  start : ∃ c ∈ t.name.head?, c.isAlpha = true
  name : ∀ c ∈ t.name, c.isAlphanum = true
  attributes : ∀ c ∈ t.attributes.head?, c.isAlphanum = false
  inside : '>' ∉ t.attributes
  ended : t.ended = true

end RawTag

/-- What follows the slash of a closing tag, and whether there is one. -/
def afterSlash : List Char → Bool × List Char
  | '/' :: s => (true, s)
  | s => (false, s)

/-- The text begins with a name, or with a slash and a name. -/
def opensTag (s : List Char) : Bool := (afterSlash s).2.head?.any Char.isAlpha

/-- What is read after the sign at the start of a tag. -/
theorem readTag?_cons (s : List Char) :
    readTag? ('<' :: s) =
      let name := (afterSlash s).2.takeWhile Char.isAlphanum
      let rest := (afterSlash s).2.dropWhile Char.isAlphanum
      if name.head?.any Char.isAlpha then
        match splitOnce '>' rest with
        | some (attributes, rest) => some (⟨(afterSlash s).1, name, attributes, true⟩, rest)
        | none => some (⟨(afterSlash s).1, name, rest, false⟩, [])
      else none := by
  have h : readTag? ('<' :: s) = (do
      let cut := (afterSlash s).2.span Char.isAlphanum
      if !(cut.1.head?.map Char.isAlpha).getD false then none
      match splitOnce '>' cut.2 with
      | some (attributes, rest) => return (⟨(afterSlash s).1, cut.1, attributes, true⟩, rest)
      | none => return (⟨(afterSlash s).1, cut.1, cut.2, false⟩, [])) := rfl
  rw [h, List.span_eq_takeWhile_dropWhile]
  cases hname : ((afterSlash s).2.takeWhile Char.isAlphanum).head? with
  | none => simp [hname]
  | some c => by_cases hc : c.isAlpha = true <;> simp [hname, hc]

theorem readTag?_eq_none_of_ne {c : Char} {s : List Char} (h : c ≠ '<') :
    readTag? (c :: s) = none := by
  rw [readTag?, afterStart?, if_neg (Ne.symm h)]
  rfl

theorem readTag?_eq_none_of_opensTag {s : List Char} (h : opensTag s = false) :
    readTag? ('<' :: s) = none := by
  rw [readTag?_cons]
  refine if_neg ?_
  rw [opensTag] at h
  cases hs : (afterSlash s).2 with
  | nil => simp
  | cons c t =>
    rw [hs, List.head?_cons, Option.any_some] at h
    rw [List.takeWhile_cons]
    split
    · simp [h]
    · simp

theorem afterSlash_cons {c : Char} {s : List Char} (h : c ≠ '/') :
    afterSlash (c :: s) = (false, c :: s) := by
  rw [afterSlash]
  rintro s' ⟨⟩
  exact h rfl

/-- A tag is read back from its text. -/
theorem readTag?_text {t : RawTag} (h : t.Writable) (rest : List Char) :
    readTag? (t.text ++ rest) = some (t, rest) := by
  obtain ⟨closing, name, attributes, ended⟩ := t
  obtain ⟨⟨c, hc, halpha⟩, hname, hattributes, hinside, hended⟩ := h
  cases hended
  have hslash :
      afterSlash ((if closing then ['/'] else []) ++ (name ++ (attributes ++ '>' :: rest))) =
        (closing, name ++ (attributes ++ '>' :: rest)) := by
    cases closing with
    | true => rfl
    | false =>
      cases name with
      | nil => cases hc
      | cons d name =>
        cases hc
        refine afterSlash_cons ?_
        rintro rfl
        exact absurd halpha (by decide)
  have hspan : (name ++ (attributes ++ '>' :: rest)).span Char.isAlphanum =
      (name, attributes ++ '>' :: rest) := by
    refine span_append hname fun d hd => ?_
    cases attributes with
    | nil =>
      cases hd
      decide
    | cons e attributes => exact hattributes d hd
  rw [List.span_eq_takeWhile_dropWhile, Prod.mk.injEq] at hspan
  have htext : RawTag.text ⟨closing, name, attributes, true⟩ ++ rest =
      '<' :: ((if closing then ['/'] else []) ++ (name ++ (attributes ++ '>' :: rest))) := by
    simp [RawTag.text]
  rw [htext, readTag?_cons, hslash]
  dsimp only
  rw [hspan.1, hspan.2, Option.mem_def.1 hc, Option.any_some, if_pos halpha,
    splitOnce_append_cons hinside]

theorem tagsIn_of_read {t : RawTag} (h : t.Writable) (rest : List Char) :
    tagsIn (t.text ++ rest) = t :: tagsIn rest := by
  have hne : t.text ≠ [] := List.cons_ne_nil _ _
  rw [tagsIn, pieces_append_of_read hne (readTag?_text h rest)]
  rfl

/-- A text without the sign has no tag. -/
theorem tagsIn_append_of_notMem {s : List Char} (h : '<' ∉ s) (rest : List Char) :
    tagsIn (s ++ rest) = tagsIn rest := by
  induction s with
  | nil => rfl
  | cons c s ih =>
    rw [List.mem_cons, not_or] at h
    rw [← ih h.2, List.cons_append, tagsIn,
      pieces_cons_of_none (readTag?_eq_none_of_ne (Ne.symm h.1))]
    rfl

namespace RawTag

/-- The element of a tag: its name with what belongs to it, such as the parts behind hyphens. -/
def element (t : RawTag) : String := String.ofList ((t.name ++ t.attributes).takeWhile isNameChar)

/-- The tag with the given text between its signs. -/
def ofText (closing : Bool) (s : List Char) : RawTag :=
  ⟨closing, s.takeWhile Char.isAlphanum, s.dropWhile Char.isAlphanum, true⟩

theorem text_ofText (closing : Bool) (s : List Char) :
    (ofText closing s).text = '<' :: (if closing then ['/'] else []) ++ s ++ ['>'] := by
  cases closing <;> simp [text, ofText]

theorem writable_ofText {closing : Bool} {s : List Char} (hstart : ∃ c ∈ s.head?, c.isAlpha = true)
    (hinside : '>' ∉ s) : (ofText closing s).Writable := by
  obtain ⟨c, hc, halpha⟩ := hstart
  obtain ⟨s, rfl⟩ := List.head?_eq_some_iff.1 hc
  have hname : c.isAlphanum = true := by simp [Char.isAlphanum, halpha]
  refine ⟨⟨c, ?_, halpha⟩, fun d hd => (List.mem_takeWhile_imp hd), head?_dropWhile, ?_, rfl⟩
  · rw [ofText, List.takeWhile_cons_of_pos hname]
    rfl
  · exact fun h => hinside ((List.dropWhile_suffix _).subset h)

theorem element_ofText (closing : Bool) {name attributes : List Char}
    (hname : ∀ c ∈ name, isNameChar c = true)
    (hattributes : ∀ c ∈ attributes.head?, isNameChar c = false) :
    (ofText closing (name ++ attributes)).element = String.ofList name := by
  have hspan := span_append hname hattributes
  rw [List.span_eq_takeWhile_dropWhile, Prod.mk.injEq] at hspan
  rw [element, ofText, List.takeWhile_append_dropWhile, hspan.1]

end RawTag

/-- A tag of a text when `rest` follows it. -/
structure RawTag.Matched (t : RawTag) (rest : List Char) : Prop where
  start : ∃ c ∈ t.name.head?, c.isAlpha = true
  name : ∀ c ∈ t.name, c.isAlphanum = true
  attributes : ∀ c ∈ t.attributes.head?, c.isAlphanum = false
  inside : '>' ∉ t.attributes
  last : t.ended = false → rest = []

theorem afterSlash_eq (s : List Char) :
    (if (afterSlash s).1 then ['/'] else []) ++ (afterSlash s).2 = s := by
  cases s with
  | nil => rfl
  | cons c s =>
    by_cases hc : c = '/'
    · subst hc
      rfl
    · rw [afterSlash_cons hc]
      rfl

/-- **What is read as a tag** is written as one. -/
theorem matched_of_readTag? {s rest : List Char} {t : RawTag} (h : readTag? s = some (t, rest)) :
    s = t.text ++ rest ∧ t.Matched rest := by
  cases s with
  | nil => cases h
  | cons c s =>
    by_cases hc : c = '<'
    · subst hc
      have hs := afterSlash_eq s
      rw [readTag?_cons] at h
      generalize afterSlash s = slashed at h hs
      obtain ⟨closing, u⟩ := slashed
      rw [← hs]
      have hname : ∀ d ∈ u.takeWhile Char.isAlphanum, d.isAlphanum = true :=
        fun d hd => List.mem_takeWhile_imp hd
      have hend : ∀ d ∈ (u.dropWhile Char.isAlphanum).head?, d.isAlphanum = false := head?_dropWhile
      have hcut : u.takeWhile Char.isAlphanum ++ u.dropWhile Char.isAlphanum = u :=
        List.takeWhile_append_dropWhile
      dsimp only at h ⊢
      generalize u.takeWhile Char.isAlphanum = name at h hname hcut
      generalize u.dropWhile Char.isAlphanum = after at h hend hcut
      subst hcut
      split at h
      · rename_i hstart
        rw [Option.any_eq_true] at hstart
        split at h
        · rename_i attributes rest hsplit
          cases h
          rw [splitOnce_eq_some hsplit] at hend ⊢
          refine ⟨by simp [RawTag.text], hstart, hname, fun d hd => hend d ?_,
            notMem_of_splitOnce hsplit, nofun⟩
          rw [List.head?_append, Option.mem_def.1 hd]
          rfl
        · rename_i hsplit
          cases h
          exact ⟨by simp [RawTag.text], hstart, hname, hend, notMem_of_splitOnce_eq_none hsplit,
            fun _ => rfl⟩
      · cases h
    · rw [readTag?_eq_none_of_ne hc] at h
      cases h

/-- No tag holds the sign that ends it. -/
theorem notMem_of_readTag? {s rest : List Char} {t : RawTag} (h : readTag? s = some (t, rest)) :
    '>' ∉ t.attributes :=
  (matched_of_readTag? h).2.inside

end Letterpress.Markup
