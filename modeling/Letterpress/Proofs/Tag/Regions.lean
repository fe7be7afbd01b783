/-
  The regions of a text.

  * `Conditional.WellFormed`: an opening marker, a first part without `{{else}}`, perhaps an
    alternative, and the first closing marker of the kind.
  * `Conditional.Exact s rs`: the regions `rs` are well formed, stand in `s` one after the other
    where their offsets say, and no opening marker outside of them has a closing marker behind it.
  * `regions_exact`: **the regions that are found in a text are exact**, and deciding them replaces
    them by their branches and changes nothing else.
-/
import Letterpress.Proofs.Tag.Branch

namespace Letterpress.Tag.Conditional

open Text

/-! ## Single regions -/

/-- A region with an opening marker, without a closing marker of its kind before its own, and cut at
    the first `{{else}}` if there is one. -/
structure WellFormed (c : Conditional) : Prop where
  heads : Heads c.gap.toList c.condition.toList
  unclosed : ¬ closingOf c.polarity <:+: c.body
  undivided : ¬ elseMarker <:+: c.first.toList
  divided : c.alternative = none → ¬ elseMarker <:+: c.body

theorem wellFormed_ofBody {p : Polarity} {gap key body : List Char} (h : Heads gap key)
    (hbody : ¬ closingOf p <:+: body) : (ofBody p gap key body).WellFormed where
  heads := by
    simp only [ofBody, String.toList_ofList]
    exact h
  unclosed := by
    rw [body_ofBody]
    exact hbody
  undivided := by
    rw [ofBody]
    cases helse : breakOn elseMarker body with
    | none => simpa using (breakOn_eq_none_iff (by decide)).1 helse
    | some parts => simpa using not_infix_of_breakOn (by decide) helse
  divided := by
    rw [body_ofBody, ofBody]
    cases helse : breakOn elseMarker body with
    | none => exact fun _ => (breakOn_eq_none_iff (by decide)).1 helse
    | some parts =>
      intro hnone
      cases hnone

theorem closingOf_ne_nil (p : Polarity) : closingOf p ≠ [] := by
  simp [closingOf, opening]

theorem wellFormed_of_readAs? {p : Polarity} {s rest : List Char} {c : Conditional}
    (h : readAs? p s = some (c, rest)) : c.WellFormed := by
  obtain ⟨gap, key, after, body, hheads, -, hbody, rfl⟩ := exists_of_readAs? h
  exact wellFormed_ofBody hheads (not_infix_of_breakOn (closingOf_ne_nil p) hbody)

theorem wellFormed_of_read? {s rest : List Char} {c : Conditional}
    (h : read? s = some (c, rest)) : c.WellFormed := by
  obtain ⟨p, h⟩ := exists_of_read? h
  exact wellFormed_of_readAs? h

/-- An opening marker at which no region is read has no closing marker behind it. -/
theorem not_infix_of_read?_eq_none {p : Polarity} {gap key after : List Char} (h : Heads gap key)
    (hread : read? (openerOf p gap key ++ after) = none) : ¬ closingOf p <:+: after := by
  have hnone := readAs?_eq_none hread p
  rw [readAs?_openerOf h, Option.map_eq_none_iff] at hnone
  exact (breakOn_eq_none_iff (closingOf_ne_nil p)).1 hnone

/-! ## All regions of a text -/

/-- The regions of a text with their offsets: what they are, and where. -/
structure Exact (s : String) (rs : List (Located Conditional)) : Prop where
  wellFormed : ∀ r ∈ rs, r.item.WellFormed
  /-- The text has the region between the two offsets. -/
  stands : ∀ r ∈ rs, ∃ before after, s.toList = before ++ (r.item.text ++ after) ∧
    r.start = utf8Length before ∧ r.stop text = utf8Length (before ++ r.item.text)
  /-- The regions ascend and do not overlap. -/
  ordered : rs.Pairwise fun r r' => r.stop text ≤ r'.start
  /-- An opening marker that starts outside of all regions is never closed. -/
  complete : ∀ p before gap key after, Heads gap key →
    s.toList = before ++ (openerOf p gap key ++ after) →
    (∀ r ∈ rs, ¬ r.Covers text (utf8Length before)) → ¬ closingOf p <:+: after

/-- **The regions that are found are exact**: each stands where its offsets say, from an opening
    marker to the first closing marker of its kind, they ascend without overlapping, and an opening
    marker outside of them is one that is never closed.  To decide them is to put the branch that
    the data selects in place of each region, and nothing outside of them changes. -/
theorem regions_exact (s : String) :
    Exact s (conditionalsIn s) ∧
    ∀ data, Replaced text (fun c => (branch data c).toList) 0 s.toList (conditionalsIn s)
      (selectBranches data s.toList) := by
  have hreplaced (f : Conditional → List Char) : Replaced text f 0 s.toList (conditionalsIn s)
      (substitute f (pieces read? s.toList)) := replaced_located readsWhole_read? f 0 s.toList
  have hread (r : Located Conditional) (hr : r ∈ conditionalsIn s) :=
    exists_read_of_mem_located readsWhole_read? hr
  refine ⟨⟨fun r hr => ?_, fun r hr => ?_, (hreplaced fun _ => []).ordered, ?_⟩,
    fun data => hreplaced _⟩
  · obtain ⟨_, _, -, -, hitem⟩ := hread r hr
    exact wellFormed_of_read? hitem
  · obtain ⟨before, after, htext, hstart, -⟩ := hread r hr
    rw [Nat.zero_add] at hstart
    exact ⟨before, after, htext, hstart, by rw [Located.stop, hstart, utf8Length_append]⟩
  · intro p before gap key after hheads htext hout
    have hne : openerOf p gap key ++ after ≠ [] := by simp [openerOf, openingOf, opening]
    have hout' : ∀ r ∈ conditionalsIn s, ¬ r.Covers text (0 + utf8Length before) := by
      rwa [Nat.zero_add]
    exact not_infix_of_read?_eq_none hheads
      (read?_eq_none_of_outside readsWhole_read? htext hne hout')

/-- An opening that is never closed does not hide the region behind it. -/
example :
    let s := "é\x7b\x7b#if a\x7d\x7d\x7b\x7b#unless b\x7d\x7dx\x7b\x7b/unless\x7d\x7d"
    (conditionalsIn s).map (fun r => (r.start, r.stop text, r.item.condition)) = [(11, 36, "b")] := by
  decide

end Letterpress.Tag.Conditional
