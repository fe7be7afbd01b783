/-
  Slugs of texts and of templates.

  * `exists_givenSlug`: a template that is read has the slug that is given, if there is one.
  * `slugify_joins_words`: **slugs are the joined words**, with what follows from it.
-/
import Letterpress.Proofs.Text.Words
import Letterpress.Template

namespace Letterpress

open Text

/-! ## Templates -/

/-- The slug that a record gives. -/
def givenSlug? : Json → Option Json
  | .object ms => Dict.get? ms "slug"
  | .array items => items[1]?
  | _ => none

theorem givenSlug?_eq {v : Json} {name : String} {fields : List String} {n slug : Option Json}
    {rest : List (Option Json)}
    (h : v.record? (name :: "slug" :: fields) = some (n :: slug :: rest)) :
    givenSlug? v = slug := by
  cases v with
  | object ms =>
    rw [Json.record?] at h
    split at h
    · simp only [Option.some.injEq, List.map_cons, List.cons.injEq] at h
      exact h.2.1
    · cases h
  | array items =>
    rw [Json.record?] at h
    split at h
    · cases h
    · have hfields := Option.some.inj h
      rcases items with _ | ⟨first, _ | ⟨second, items⟩⟩
      · simp only [List.length_cons, List.length_nil, Nat.sub_zero, List.map_nil, List.nil_append,
          List.replicate_succ, List.cons.injEq] at hfields
        exact hfields.2.1
      · simp only [List.length_cons, List.length_nil, Nat.zero_add, Nat.add_one_sub_one,
          List.map_cons, List.map_nil, List.cons_append, List.nil_append, List.replicate_succ,
          List.cons.injEq] at hfields
        exact hfields.2.1
      · simp only [List.map_cons, List.cons_append, List.cons.injEq] at hfields
        exact hfields.2.1
  | null | bool | number | string => cases h

theorem absent_text {field : Option Json} {s : String}
    (h : Json.absent "" Json.text? field = some s) :
    field = none ∧ s = "" ∨ field = some (.string s) := by
  cases field with
  | none => exact .inl ⟨rfl, (Option.some.inj h).symm⟩
  | some v =>
    cases v with
    | string text => exact .inr (congrArg (fun s => some (Json.string s)) (Option.some.inj h))
    | null | bool | number | array | object => cases h

theorem exists_givenSlug {v : Json} {t : Template} (h : Template.ofJson? v = some t) :
    givenSlug? v = none ∧ t.slug = "" ∨ givenSlug? v = some (.string t.slug) := by
  simp only [Template.ofJson?, Option.bind_eq_bind, Option.bind_eq_some_iff] at h
  obtain ⟨vs, hrecord, h⟩ := h
  split at h
  · simp only [Option.bind_eq_some_iff] at h
    obtain ⟨-, -, given, hgiven, -, -, -, -, -, -, -, -, -, -, -, -, -, -, ⟨⟩⟩ := h
    rw [givenSlug?_eq hrecord]
    exact absent_text hgiven
  · cases h

/-- A slug is derived from the name if none is given, or an empty one. -/
theorem slug_of_parse? {s : String} {t : Template} (h : Template.parse? s = some t) :
    ∃ v, Json.readAs? Template.shape s = some v ∧
      ((givenSlug? v = none ∨ givenSlug? v = some (.string "")) ∧ t.slug = slugify t.name ∨
        ∃ given, given ≠ "" ∧ givenSlug? v = some (.string given) ∧ t.slug = given) := by
  obtain ⟨t, hread, rfl⟩ := Option.map_eq_some_iff.1 h
  obtain ⟨v, hv, hrecord⟩ := Option.bind_eq_some_iff.1 hread
  refine ⟨v, hv, ?_⟩
  have hgiven := exists_givenSlug hrecord
  by_cases hslug : t.slug = ""
  · have hderived : t.withSlug = { t with slug := slugify t.name } := by
      rw [Template.withSlug, hslug]
      rfl
    rw [hslug] at hgiven
    rw [hderived]
    exact .inl ⟨hgiven.imp_left And.left, rfl⟩
  · have hkept : t.withSlug = t := by
      rw [Template.withSlug, if_neg (mt String.isEmpty_iff.1 hslug)]
    rw [hkept]
    exact .inr ⟨t.slug, hslug, hgiven.resolve_left fun h => hslug h.2, rfl⟩

/-! ## Slugs -/

/-- **A slug is the words of the text**, in lower case and joined by single dashes.  So there are
    no other dashes in it, it is empty exactly for a text without words, what stands between and
    around the words does not matter, and texts that are put together with a separator have their
    slugs joined.  A template that is read has such a slug exactly if none is given. -/
theorem slugify_joins_words :
    (∀ text : String, ∃ words, (∀ words', Words text.toList words' ↔ words' = words) ∧
        (slugify text).toList = joinWith ['-'] (words.map lowered)) ∧
      (∀ text : String, DashesInside (slugify text).toList) ∧
      (∀ text : String, slugify text = "" ↔ ∀ c ∈ text.toList, isAlphanumeric c = false) ∧
      (∀ (text text' : String) (words : List (List Char)), Words text.toList words →
        Words text'.toList words → slugify text = slugify text') ∧
      (∀ a b separator : String, separator ≠ "" →
        (∀ c ∈ separator.toList, isAlphanumeric c = false) →
        (slugify (a ++ separator ++ b)).toList =
          joinWith ['-'] ([(slugify a).toList, (slugify b).toList].filter (· ≠ []))) ∧
      ∀ (s : String) (t : Template), Template.parse? s = some t →
        ∃ v, Json.readAs? Template.shape s = some v ∧
          ((givenSlug? v = none ∨ givenSlug? v = some (.string "")) ∧ t.slug = slugify t.name ∨
            ∃ given, given ≠ "" ∧ givenSlug? v = some (.string given) ∧ t.slug = given) := by
  refine ⟨fun text => ?_, fun text => ?_, slugify_eq_empty_iff, fun text text' words h h' => ?_,
    fun a b separator => slugify_append, fun s t => slug_of_parse?⟩
  · obtain ⟨words, h⟩ := exists_words text.toList
    exact ⟨words, fun words' => ⟨fun h' => h'.unique h, fun heq => heq ▸ h⟩, h.toList_slugify⟩
  · obtain ⟨words, h⟩ := exists_words text.toList
    rw [h.toList_slugify]
    exact dashesInside_joinWith h.lowered_ne_nil h.dash_notMem_lowered
  · rw [← String.toList_inj, h.toList_slugify, h'.toList_slugify]

example : slugify "--Hello,  World 2! " = "hello-world-2" := by decide +kernel

end Letterpress
