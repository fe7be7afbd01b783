/-
  What is left of a text once its conditional regions are decided.

  * `Conditional.readsWhole_read?`: a region that is read is the text that it is written as.
  * `Cut s o`: the text `o` is `s` without some parts, each of which starts with `{{`.
  * `cut_selectBranches`: **deciding the regions only leaves such parts out.**
  * `Cut.infix_of_clear`: so nothing that a clear text keeps is put together from parts that did not
    stand side by side, as far as what follows braces is concerned.
-/
import Letterpress.Proofs.Tag.Mention
import Letterpress.Proofs.Text.Locating
import Letterpress.Tag.Processor
import Mathlib.Data.Option.Basic

namespace Letterpress.Tag

open Text

/-! ## Regions as they stand in a text -/

namespace Conditional

theorem readAs?_eq_some {p : Polarity} {s rest : List Char} {c : Conditional}
    (h : readAs? p s = some (c, rest)) : s = c.text ++ rest := by
  obtain ⟨gap, key, after, body, -, rfl, hbody, rfl⟩ := exists_of_readAs? h
  simp only [text_ofBody, breakOn_eq_some hbody, List.append_assoc]

/-- A region that is read is one of the two kinds. -/
theorem exists_of_read? {s rest : List Char} {c : Conditional} (h : read? s = some (c, rest)) :
    ∃ p, readAs? p s = some (c, rest) := by
  rcases (Option.orElse_eq_some _ _ _).1 h with h | ⟨-, h⟩
  · exact ⟨.whenTrue, h⟩
  · exact ⟨.whenFalse, h⟩

theorem readAs?_eq_none {s : List Char} (h : read? s = none) (p : Polarity) :
    readAs? p s = none := by
  obtain ⟨htrue, hfalse⟩ := (Option.orElse_eq_none _ _).1 h
  cases p with
  | whenTrue => exact htrue
  | whenFalse => exact hfalse

/-- **A region that is read** is the text that it is written as. -/
theorem read?_eq_some {s rest : List Char} {c : Conditional} (h : read? s = some (c, rest)) :
    s = c.text ++ rest := by
  obtain ⟨p, h⟩ := exists_of_read? h
  exact readAs?_eq_some h

theorem readsWhole_read? : ReadsWhole text read? where
  nonempty _ := by simp [text, openingOf, opening]
  whole := read?_eq_some

end Conditional

/-! ## Leaving parts out -/

/-- The second text is the first one without some parts that start with `{{`. -/
inductive Cut : List Char → List Char → Prop where
  | nil : Cut [] []
  | keep (c : Char) {s o : List Char} : Cut s o → Cut (c :: s) (c :: o)
  | drop (part : List Char) {s o : List Char} : Cut s o → Cut (opening ++ (part ++ s)) o

namespace Cut

theorem refl : ∀ s, Cut s s
  | [] => .nil
  | c :: s => .keep c (refl s)

/-- A part that starts with `{{` can be left out. -/
theorem dropped (part : List Char) : Cut (opening ++ part) [] := by
  have h := Cut.drop part .nil
  rwa [List.append_nil] at h

theorem append {s o s' o' : List Char} (h : Cut s o) (h' : Cut s' o') :
    Cut (s ++ s') (o ++ o') := by
  induction h with
  | nil => exact h'
  | keep c _ ih => exact .keep c ih
  | drop part _ ih =>
    rw [List.append_assoc, List.append_assoc]
    exact .drop part ih

/-- If of every item a part is kept, then so it is of the whole text. -/
theorem substitute {α : Type} {text f : α → List Char} {read? : Reader α}
    (h : ReadsWhole text read?) (hf : ∀ a, Cut (text a) (f a)) (s : List Char) :
    Cut s (substitute f (pieces read? s)) := by
  induction s using h.induction with
  | nil =>
    rw [pieces_nil]
    exact .nil
  | char c s hread ih =>
    rw [pieces_cons_of_none hread]
    exact .keep c ih
  | item a rest hread ih =>
    rw [pieces_append_of_read (h.nonempty hread) hread, substitute_item]
    exact (hf a).append ih

end Cut

/-! ## Deciding the regions -/

/-- The branch that is selected is what is left of a region. -/
theorem Conditional.cut_branch (data : Members) (c : Conditional) :
    Cut c.text (branch data c).toList := by
  have hbefore (part : List Char) : Cut (openingOf c.polarity ++ part) [] :=
    Cut.dropped ('#' :: c.polarity.word.toList ++ part)
  have hafter : Cut (closingOf c.polarity) [] := Cut.dropped _
  rw [branch]
  split
  · -- the first part is kept, what stands around it is dropped
    have hfirst := (hbefore (c.gap.toList ++ c.condition.toList ++ closing)).append
      (Cut.refl c.first.toList)
    cases ha : c.alternative with
    | none => simpa [Conditional.text, ha] using hfirst.append hafter
    | some a =>
      have helse : Cut (elseMarker ++ (a.toList ++ closingOf c.polarity)) [] := Cut.dropped _
      simpa [Conditional.text, ha] using hfirst.append helse
  · cases ha : c.alternative with
    | none =>
      have hall := hbefore (c.gap.toList ++ c.condition.toList ++ closing ++ c.first.toList ++
        closingOf c.polarity)
      simpa [Conditional.text, ha] using hall
    | some a =>
      have hfirst := hbefore (c.gap.toList ++ c.condition.toList ++ closing ++ c.first.toList ++
        elseMarker)
      simpa [Conditional.text, ha] using (hfirst.append (Cut.refl a.toList)).append hafter

/-- **Deciding the regions only leaves parts out** that start with `{{`. -/
theorem cut_selectBranches (data : Members) (s : List Char) :
    Cut s (Conditional.selectBranches data s) :=
  Cut.substitute Conditional.readsWhole_read? (Conditional.cut_branch data) s

/-! ## What stands side by side -/

/-- The start of what is left stood side by side, or was followed by braces. -/
theorem Cut.prefix_or {s o : List Char} (h : Cut s o) {p : List Char} (hp : p <+: o) :
    p <+: s ∨ ∃ q, q <+: p ∧ q ++ opening <+: s := by
  induction h generalizing p with
  | nil => exact .inl hp
  | keep c _ ih =>
    cases p with
    | nil => exact .inl List.nil_prefix
    | cons x p =>
      obtain ⟨rfl, htail⟩ := List.cons_prefix_cons.1 hp
      rcases ih htail with hs | ⟨q, hq, hs⟩
      · exact .inl (List.cons_prefix_cons.2 ⟨rfl, hs⟩)
      · exact .inr ⟨x :: q, List.cons_prefix_cons.2 ⟨rfl, hq⟩, List.cons_prefix_cons.2 ⟨rfl, hs⟩⟩
  | drop part _ => exact .inr ⟨[], List.nil_prefix, List.prefix_append opening _⟩

/-- **What follows braces was not put together** when parts of a clear text are left out. -/
theorem Cut.infix_of_clear {s o : List Char} (h : Cut s o) (hs : Clear s) {body : List Char}
    (hbody : Unstopped body) {d : Char} (ho : opening ++ (body ++ [d]) <:+: o) :
    opening ++ (body ++ [d]) <:+: s := by
  induction h with
  | nil => exact ho
  | keep c h ih =>
    rename_i s o
    rcases List.infix_cons_iff.1 ho with hprefix | hinside
    · obtain ⟨rfl, htail⟩ := List.cons_prefix_cons.1 hprefix
      rcases h.prefix_or htail with hkept | ⟨q, hq, hbraces⟩
      · exact (List.cons_prefix_cons.2 ⟨rfl, hkept⟩).isInfix
      · -- braces after a part of the run would be swallowed
        have hbraces : '{' :: (q ++ opening) <+: '{' :: s := List.cons_prefix_cons.2 ⟨rfl, hbraces⟩
        rcases List.prefix_cons_iff.1 hq with rfl | ⟨run, rfl, hrun⟩
        · exact absurd hbraces.isInfix hs.not_three
        · rcases List.prefix_concat_iff.1 hrun with rfl | hrun
          · exact ((List.prefix_append _ opening).trans hbraces).isInfix
          · have hopen : Unstopped run := fun c hc => hbody c (hrun.subset hc)
            exact absurd hbraces.isInfix (hs.not_braces hopen)
    · have hsuffix := (List.suffix_cons c s).isInfix
      exact (ih (hs.of_infix hsuffix) hinside).trans hsuffix
  | drop part h ih =>
    rename_i s o
    have hsuffix : s <:+: opening ++ (part ++ s) :=
      ((List.suffix_append part s).trans (List.suffix_append opening _)).isInfix
    exact (ih (hs.of_infix hsuffix) ho).trans hsuffix

end Letterpress.Tag
