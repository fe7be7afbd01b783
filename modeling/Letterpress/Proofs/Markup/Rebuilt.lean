/-
  What stays of a single tag.

  * `RebuiltAttribute element` is an attribute that the element may have, with a value that cannot
    leave its quotes; `RawAttribute.Rebuilds` says which attribute stands for one that is found.
  * `RawTag.Rebuilt t as s`: the text `s` may stand for the tag `t` with the attributes `as`.
  * `rebuilt_kept`: **what stays of a tag is safe by itself**, wherever the tag is found.
-/
import Letterpress.Proofs.Markup.Grammar

namespace Letterpress.Markup

open Text

/-! ## Attributes -/

/-- An attribute that the element may have, with a value that cannot leave its quotes. -/
structure RebuiltAttribute (element : String) where
  key : String
  allowed : key ∈ allowedAttributes element
  value : List Char
  quoted : '"' ∉ value
  inside : '>' ∉ value

/-- The attribute after a space, with its value in double quotes. -/
def RebuiltAttribute.text {element : String} (b : RebuiltAttribute element) : List Char :=
  ' ' :: b.key.toList ++ ['=', '"'] ++ b.value ++ ['"']

namespace RawAttribute

/-- The name in lower case. -/
def key (a : RawAttribute) : String := String.ofList (a.name.map Char.toLower)

/-- The value that is found, which is empty if there is none. -/
def captured (a : RawAttribute) : List Char := a.value.getD []

/-- The attribute stands for one that is found: under the same name, with the same value but for
    its double quotes, or with `#` for a link target that is not safe. -/
structure Rebuilds {element : String} (a : RawAttribute) (b : RebuiltAttribute element) : Prop where
  key : b.key = a.key
  link : b.key = "href" →
    b.value = if isSafeUrl (String.ofList a.captured) then hideQuotes a.captured else ['#']
  other : b.key ≠ "href" → b.value = hideQuotes a.captured

variable {element : String} {a : RawAttribute}

/-- What stays of an attribute is one that stands for it. -/
theorem exists_rebuilds (h : a.key ∈ allowedAttributes element) (ha : ∀ v ∈ a.value, '>' ∉ v) :
    ∃ b : RebuiltAttribute element, a.Rebuilds b ∧ a.kept element = b.text := by
  have hinside : '>' ∉ a.captured := by
    rw [captured]
    cases hv : a.value with
    | none => exact List.not_mem_nil
    | some v => exact ha v hv
  have hshown (v : List Char) (hv : '>' ∉ v) : '>' ∉ hideQuotes v :=
    notMem_hideQuotes_of_notMem (by decide) hv
  have hkept (value : List Char)
      (hvalue : (if a.key = "href" then (safeUrl (String.ofList a.captured)).toList
        else a.captured) = value) :
      a.kept element = ' ' :: a.key.toList ++ ['=', '"'] ++ hideQuotes value ++ ['"'] := by
    rw [← hvalue]
    exact if_pos (List.contains_iff_mem.2 h)
  by_cases hhref : a.key = "href"
  · by_cases hsafe : isSafeUrl (String.ofList a.captured) = true
    · refine ⟨⟨a.key, h, hideQuotes a.captured, notMem_hideQuotes _, hshown _ hinside⟩,
        ⟨rfl, fun _ => (if_pos hsafe).symm, fun _ => rfl⟩, hkept _ ?_⟩
      rw [if_pos hhref, safeUrl, if_pos hsafe, String.toList_ofList]
    · refine ⟨⟨a.key, h, ['#'], by decide, by decide⟩,
        ⟨rfl, fun _ => (if_neg hsafe).symm, fun hne => absurd hhref hne⟩, hkept ['#'] ?_⟩
      rw [if_pos hhref, safeUrl, if_neg hsafe]
      rfl
  · exact ⟨⟨a.key, h, hideQuotes a.captured, notMem_hideQuotes _, hshown _ hinside⟩,
      ⟨rfl, fun heq => absurd heq hhref, fun _ => rfl⟩, hkept _ (if_neg hhref)⟩

/-- The attributes that an element may have, of those that are found. -/
def allowedOf (element : String) (as : List RawAttribute) : List RawAttribute :=
  as.filter fun a => (allowedAttributes element).contains a.key

theorem exists_rebuilds_all {as : List RawAttribute} (has : ∀ a ∈ as, ∀ v ∈ a.value, '>' ∉ v) :
    ∃ bs : List (RebuiltAttribute element), List.Forall₂ Rebuilds (allowedOf element as) bs ∧
      as.flatMap (·.kept element) = bs.flatMap RebuiltAttribute.text := by
  induction as with
  | nil => exact ⟨[], .nil, rfl⟩
  | cons a as ih =>
    obtain ⟨ha, has⟩ := List.forall_mem_cons.1 has
    obtain ⟨bs, hbs, htext⟩ := ih has
    rw [List.flatMap_cons, htext]
    by_cases hallowed : (allowedAttributes element).contains a.key = true
    · obtain ⟨b, hb, hkept⟩ := exists_rebuilds (List.contains_iff_mem.1 hallowed) ha
      refine ⟨b :: bs, ?_, by rw [hkept, List.flatMap_cons]⟩
      rw [allowedOf, List.filter_cons, if_pos hallowed]
      exact .cons hb hbs
    · have hkept : a.kept element = [] := if_neg hallowed
      refine ⟨bs, ?_, by rw [hkept, List.nil_append]⟩
      rwa [allowedOf, List.filter_cons, if_neg hallowed]

end RawAttribute

/-! ## Tags -/

namespace RawTag

/-- The name in lower case. -/
def lowerName (t : RawTag) : String := String.ofList (t.name.map Char.toLower)

/-- What may stand for a tag with the given attributes. -/
inductive Rebuilt (t : RawTag) (as : List RawAttribute) : List Char → Prop
  | unended : t.ended = false → Rebuilt t as []
  | refused : t.lowerName ∉ allowedElements → Rebuilt t as []
  | closing : t.ended = true → t.lowerName ∈ allowedElements → t.closing = true →
      Rebuilt t as (['<', '/'] ++ t.lowerName.toList ++ ['>'])
  | opening {bs : List (RebuiltAttribute t.lowerName)} {slash} : t.ended = true →
      t.lowerName ∈ allowedElements → t.closing = false →
      List.Forall₂ RawAttribute.Rebuilds (RawAttribute.allowedOf t.lowerName as) bs →
      slash = [] ∨ slash = [' ', '/'] →
      Rebuilt t as ('<' :: t.lowerName.toList ++ bs.flatMap RebuiltAttribute.text ++ slash ++ ['>'])

variable {t : RawTag}

theorem kept_of_not (h : ¬ (t.ended = true ∧ t.lowerName ∈ allowedElements)) : t.kept = [] := by
  have hcondition : (!t.ended || !allowedElements.contains t.lowerName) = true := by
    rwa [Bool.or_eq_true, Bool.not_eq_true', Bool.not_eq_true', ← Bool.not_eq_true,
      ← Bool.not_eq_true, List.contains_iff_mem, ← not_and_or]
  exact if_pos hcondition

theorem kept_of_allowed (hended : t.ended = true) (hname : t.lowerName ∈ allowedElements) :
    t.kept = if t.closing then ['<', '/'] ++ t.lowerName.toList ++ ['>'] else
      '<' :: t.lowerName.toList ++ t.attributeList.flatMap (·.kept t.lowerName) ++
        (if (trimEnd t.attributes).getLast? = some '/' then [' ', '/'] else []) ++ ['>'] := by
  have hcondition : (!t.ended || !allowedElements.contains t.lowerName) = false := by
    rw [hended, List.contains_iff_mem.2 hname]
    rfl
  exact if_neg (Bool.not_eq_true _ ▸ hcondition)

/-- What stays of a tag stands for it with the attributes that are read in it. -/
theorem rebuilt_kept_attributeList (h : '>' ∉ t.attributes) :
    t.Rebuilt t.attributeList t.kept := by
  by_cases hended : t.ended = true
  · by_cases hname : t.lowerName ∈ allowedElements
    · rw [kept_of_allowed hended hname]
      cases hclosing : t.closing with
      | true => exact .closing hended hname hclosing
      | false =>
        obtain ⟨bs, hbs, htext⟩ := RawAttribute.exists_rebuilds_all (notMem_value h)
        rw [if_neg Bool.false_ne_true, htext]
        refine .opening hended hname hclosing hbs ?_
        split
        · exact .inr rfl
        · exact .inl rfl
    · rw [kept_of_not fun h => hname h.2]
      exact .refused hname
  · rw [kept_of_not fun h => hended h.1]
    exact .unended (Bool.not_eq_true _ ▸ hended)

/-- **What stays of a tag is safe by itself**: nothing if its element is not allowed or if it does
    not end, and otherwise a tag of its element, in lower case, with those of the attributes found
    in it that the element may have.  Their values are the ones that are found, and no link target
    is among them that is not safe. -/
theorem rebuilt_kept {html : List Char} {t : RawTag} (h : t ∈ tagsIn html) :
    (∃ before after, html = before ++ (t.text ++ after) ∧ t.Matched after) ∧
      (∃ as, (∀ as', Found t.attributes as' ↔ as' = as) ∧ t.Rebuilt as t.kept) ∧
      (t.ended = false → t.kept = []) := by
  obtain ⟨s, rest, ⟨before, rfl⟩, hread⟩ := exists_read_of_mem_items h
  obtain ⟨rfl, hmatched⟩ := matched_of_readTag? hread
  refine ⟨⟨before, rest, rfl, hmatched⟩, ⟨t.attributeList, fun as => found_iff.trans eq_comm,
    rebuilt_kept_attributeList hmatched.inside⟩, fun hended => kept_of_not fun h => ?_⟩
  rw [hended] at h
  exact Bool.false_ne_true h.1

/-- Values in all forms are kept, and the link that is not safe is not. -/
theorem rebuilt_kept_link :
    let html := "<A HREF='x\"y' target = b onclick=f() REL href=\"javascript:f()\" / >x</A>".toList
    let link : RawTag := ⟨false, ['A'],
      " HREF='x\"y' target = b onclick=f() REL href=\"javascript:f()\" / ".toList, true⟩
    link ∈ tagsIn html ∧
      link.kept = "<a href=\"x&quot;y\" target=\"b\" rel=\"\" href=\"#\" />".toList ∧
      ∃ as, (∀ as', Found link.attributes as' ↔ as' = as) ∧ link.Rebuilt as link.kept := by
  intro html link
  have hmem : link ∈ tagsIn html := by decide +kernel
  exact ⟨hmem, by decide +kernel, (rebuilt_kept hmem).2.1⟩

end RawTag

end Letterpress.Markup
