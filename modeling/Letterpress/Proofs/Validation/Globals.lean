/-
  What the check of a template takes for global, and what can be resolved.

  The check looks a key up among the global tags as it is written; a tag is resolved by the segments
  of its key, from the global tag of the first one on.

  * `Globals.Reaches gs path`: a global tag has a value at the path.
  * `isSome_resolve_merged_iff`: these are the paths that are resolved without data.
  * `undefined_iff_unresolved`: **a key without a dot is reported exactly if it cannot be resolved**;
    a key with a dot is reported although it is resolved, or resolved to nothing and not reported,
    exactly if one of the two look-ups succeeds and the other one does not.
  * `dotted_keys_disagree`: both happen.
-/
import Letterpress.Proofs.Json.Path
import Letterpress.Proofs.Tag.Template
import Letterpress.Proofs.Validation.Tags

namespace Letterpress

open Text

namespace Globals

/-- The global tag of the first segment has a value at the others. -/
def Reaches (gs : Globals) (path : String) : Prop :=
  ∃ first rest tag, Json.segments path = first :: rest ∧ Dict.get? gs first = some tag ∧
    (Json.follow rest tag.present).isSome = true

variable {gs : Globals} {path : String}

/-- **A path is resolved without data** exactly if the globals reach it. -/
theorem isSome_resolve_merged_iff :
    (Json.resolve path (gs.merged [])).isSome = true ↔ gs.Reaches path := by
  obtain ⟨first, rest, hpath⟩ := Json.exists_segments path
  have hnone : Dict.get? ([] : Members) first = none := rfl
  rw [Json.resolve_of_segments hpath, get?_merged, hnone, Option.none_or]
  constructor
  · intro h
    obtain ⟨tag, htag⟩ : ∃ tag, Dict.get? gs first = some tag := by
      cases hget : Dict.get? gs first with
      | none =>
        rw [hget] at h
        cases h
      | some tag => exact ⟨tag, rfl⟩
    rw [htag] at h
    exact ⟨first, rest, tag, hpath, htag, h⟩
  · rintro ⟨first', rest', tag, hpath', htag, h⟩
    obtain ⟨rfl, rfl⟩ := List.cons.inj (hpath.symm.trans hpath')
    rw [htag]
    exact h

/-- A key without a dot is reached exactly if it is registered. -/
theorem reaches_iff_of_notMem (h : '.' ∉ path.toList) : gs.Reaches path ↔ gs.has path = true := by
  rw [Dict.has, Option.isSome_iff_exists]
  constructor
  · rintro ⟨first, rest, tag, hpath, htag, -⟩
    rw [Json.segments_of_notMem h] at hpath
    obtain ⟨rfl, -⟩ := List.cons.inj hpath
    exact ⟨tag, htag⟩
  · rintro ⟨tag, htag⟩
    exact ⟨path, [], tag, Json.segments_of_notMem h, htag, rfl⟩

end Globals

namespace Validation

open Tag

section

variable {content : Json} {declared : List TagDefinition} {key : String}

/-- **What the check reports and what can be resolved.**  Of the keys that are used and not
    declared, one without a dot is reported exactly if it cannot be resolved without data.  A key is
    reported although it can be resolved exactly if it is a path into a global tag and not itself
    registered, and it is neither reported nor resolved exactly if it is registered itself and leads
    nowhere as a path; so these keys have a dot. -/
theorem undefined_iff_unresolved (hused : key ∈ mentions content)
    (hdeclared : ∀ d ∈ declared, d.key ≠ key) (globals : Globals) :
    let reported := key ∈ (checkTags content declared globals).undefined
    let unresolved := Json.resolve key (globals.merged []) = none
    ('.' ∉ key.toList → (reported ↔ unresolved)) ∧
    (reported ∧ ¬ unresolved ↔ globals.has key = false ∧ globals.Reaches key) ∧
    (¬ reported ∧ unresolved ↔ globals.has key = true ∧ ¬ globals.Reaches key) := by
  intro reported unresolved
  have hreported : reported ↔ globals.has key = false :=
    mem_undefined.trans ⟨fun h => h.2.2, fun h => ⟨hused, hdeclared, h⟩⟩
  have hunresolved : unresolved ↔ ¬ globals.Reaches key := by
    rw [← Globals.isSome_resolve_merged_iff, Bool.not_eq_true, Option.isSome_eq_false_iff,
      Option.isNone_iff_eq_none]
  refine ⟨fun hdot => ?_, ?_, ?_⟩
  · rw [hreported, hunresolved, Globals.reaches_iff_of_notMem hdot, Bool.not_eq_true]
  · rw [hreported, hunresolved, not_not]
  · rw [hreported, hunresolved, Bool.not_eq_false]

end

/-- A path into a table that is registered under its own name, next to a key that is unknown. -/
theorem undefined_iff_unresolved_of_table :
    let content : Json := .array [.string "\x7b\x7bcompany.name\x7d\x7d, \x7b\x7bcoupon|upper\x7d\x7d"]
    let globals := Globals.registerValue "company" (.object [("name", .string "Acme")]) []
    let reported := (checkTags content [.ofKey "name" true] globals).undefined
    ("company.name" ∈ reported ∧ Json.resolve "company.name" (globals.merged []) ≠ none) ∧
    ("coupon" ∈ reported ↔ Json.resolve "coupon" (globals.merged []) = none) := by
  intro content globals reported
  have hmentions : "company.name" ∈ mentions content ∧ "coupon" ∈ mentions content := by decide
  have hpath : Globals.Reaches globals "company.name" :=
    ⟨"company", ["name"], _, by decide, rfl, rfl⟩
  have hdeclared : ∀ key ∈ ["company.name", "coupon"], ∀ d ∈ [TagDefinition.ofKey "name" true],
      d.key ≠ key := by
    decide
  have hfirst := undefined_iff_unresolved hmentions.1 (hdeclared _ (by decide)) globals
  have hsecond := undefined_iff_unresolved hmentions.2 (hdeclared _ (by decide)) globals
  exact ⟨hfirst.2.1.2 ⟨rfl, hpath⟩, hsecond.1 (by decide)⟩

/-- **Keys with dots are looked up in two ways**: a path into a global table is reported although it
    is resolved, and a global tag whose own key has a dot is not reported although it never is. -/
theorem dotted_keys_disagree :
    let s := "\x7b\x7bcompany.name\x7d\x7d"
    let table := Globals.registerValue "company" (.object [("name", .string "Acme")]) []
    let flat := Globals.registerValue "company.name" (.string "Acme") []
    (checkTags (.string s) [] table = ⟨["company.name"], []⟩ ∧
      Json.resolve "company.name" (table.merged []) = some (.string "Acme") ∧
      Processor.run ⟨table, .builtin⟩ s [] = "Acme") ∧
    (checkTags (.string s) [] flat = ⟨[], []⟩ ∧
      Json.resolve "company.name" (flat.merged []) = none ∧
      Processor.run ⟨flat, .builtin⟩ s [] = "") := by
  intro s table flat
  exact ⟨⟨by decide, rfl, by decide⟩, ⟨by decide, by decide, by decide⟩⟩

end Validation

end Letterpress
