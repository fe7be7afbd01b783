/-
  What pasting makes of blocks.

  * `Joined taken b minted b'`: the block `b` becomes `b'` where the identifiers `taken` are in use.
    It is kept, or copied if it has one of these.
  * `Pasted taken supplied parts added`: so it is for each block of a list, where the identifiers of
    those before it are in use too; `parts` has what is minted for each.  `Pasted.joined` says it
    of the block at an index.
  * `pastes_faithfully`: the tree after pasting is the old one, or nothing of it, with the blocks
    joined in order.
-/
import Letterpress.Proofs.Block.Anonymous
import Letterpress.Proofs.Editor.Identifiers

namespace Letterpress

open Minting

/-! ## One block -/

/-- What becomes of a block where some identifiers are in use, and what is minted for it. -/
inductive Joined (taken : List String) (b : Block) : List String → Block → Prop where
  /-- None of its identifiers is in use, and it stays as it is. -/
  | kept (hfree : b.ids.Disjoint taken) : Joined taken b [] b
  /-- One of them is, and it is copied: all identifiers are new, and nothing else. -/
  | copied {minted : List String} {copy : Block} (hused : ¬ b.ids.Disjoint taken)
      (hids : minted.Perm copy.allIds) (hcopy : copy.anonymous = b.anonymous) :
      Joined taken b minted copy

theorem joined_copyIfTaken (taken : List String) (b : Block) :
    Yields (copyIfTaken taken b) (Joined taken b) := by
  have hany : b.ids.any taken.contains = true ↔ ¬ b.ids.Disjoint taken := by
    simp [List.Disjoint, List.any_eq_true]
  rw [copyIfTaken]
  split
  · rename_i htaken
    exact (b.yields_duplicate.and_ensures b.anonymous_duplicate).imp fun minted copy h =>
      .copied (hany.mp htaken) h.1 h.2
  · rename_i htaken
    exact yields_pure (.kept (by rwa [hany, not_not] at htaken))

/-! ## Several blocks -/

/-- What becomes of the blocks of a list, one after the other. -/
inductive Pasted : List String → List Block → List (List String) → List Block → Prop where
  | nil (taken : List String) : Pasted taken [] [] []
  | cons {taken minted : List String} {b b' : Block} {supplied added : List Block}
      {parts : List (List String)} (hb : Joined taken b minted b')
      (hrest : Pasted (taken ++ b'.ids) supplied parts added) :
      Pasted taken (b :: supplied) (minted :: parts) (b' :: added)

theorem pasted_freshened (taken : List String) (supplied : List Block) :
    Yields (Editor.freshened taken supplied) fun minted added =>
      ∃ parts, parts.flatten = minted ∧ Pasted taken supplied parts added := by
  induction supplied generalizing taken with
  | nil => exact yields_pure ⟨[], rfl, .nil taken⟩
  | cons b supplied ih =>
    rw [freshened_cons]
    refine (joined_copyIfTaken taken b).bind fun minted b' hb =>
      (ih (taken ++ b'.ids)).bind_pure ?_
    rintro _ added ⟨parts, rfl, hrest⟩
    exact ⟨minted :: parts, rfl, .cons hb hrest⟩

section

variable {taken : List String} {supplied added : List Block} {parts : List (List String)}

theorem Pasted.length_eq (h : Pasted taken supplied parts added) :
    parts.length = supplied.length ∧ added.length = supplied.length := by
  induction h with
  | nil => exact ⟨rfl, rfl⟩
  | cons _ _ ih => exact ⟨congrArg (· + 1) ih.1, congrArg (· + 1) ih.2⟩

/-- Each block joins those that were there and those that were added before it. -/
theorem Pasted.joined (h : Pasted taken supplied parts added) {i : Nat} {b : Block}
    (hb : supplied[i]? = some b) : ∃ part b', parts[i]? = some part ∧ added[i]? = some b' ∧
      Joined (taken ++ (added.take i).flatMap Block.ids) b part b' := by
  induction h generalizing i with
  | nil => cases hb
  | @cons taken minted first first' supplied added parts hfirst _ ih =>
    cases i with
    | zero =>
      cases hb
      refine ⟨minted, first', rfl, rfl, ?_⟩
      rwa [List.take_zero, List.flatMap_nil, List.append_nil]
    | succ i =>
      obtain ⟨part, b', hpart, hb', hjoined⟩ := ih hb
      refine ⟨part, b', hpart, hb', ?_⟩
      rwa [List.take_succ_cons, List.flatMap_cons, ← List.append_assoc]

end

/-! ## The operation -/

/-- **Pasting appends faithfully.**  The tree becomes the old one, or nothing of it, followed by one
    block for each supplied one, in order: the block itself, unless one of its identifiers is in use
    in the tree or in a block added before, and else a copy with new identifiers throughout.  The
    first added block is selected if there is one, the tree is recorded once, and all else in the
    session stays. -/
theorem pastes_faithfully (e : Editor) (supplied : List Block) (replacing : Bool) (s : Supply) :
    ∃ (parts : List (List String)) (added : List Block) (s' : Supply),
      parts.length = supplied.length ∧ added.length = supplied.length ∧
      s.Mints parts.flatten s' ∧ (∀ known, s.Fresh known → AllNew known parts.flatten) ∧
      let kept := if replacing then [] else e.blocks
      let past := e.history.snapshots.take (e.history.index + 1)
      (∀ i b, supplied[i]? = some b → ∃ part b', parts[i]? = some part ∧ added[i]? = some b' ∧
        Joined ((kept ++ added.take i).flatMap Block.ids) b part b') ∧
      (Operation.paste supplied replacing).run e s =
        ((.done, { e with
          blocks := kept ++ added
          selection := match added with
            | [] => e.selection
            | b :: _ => .block b.id
          history := ⟨past ++ [kept ++ added], past.length⟩
          dirty := true }), s') := by
  obtain ⟨minted, hmints, parts, rfl, hpasted⟩ :=
    pasted_freshened ((if replacing then [] else e.blocks).flatMap Block.ids) supplied s
  obtain ⟨hparts, hadded⟩ := hpasted.length_eq
  refine ⟨parts, _, _, hparts, hadded, hmints, fun known hfresh => (hfresh.mints hmints).1, ?_⟩
  refine ⟨fun i b hb => ?_, ?_⟩
  · rw [List.flatMap_append]
    exact hpasted.joined hb
  · rw [Operation.run, bind_run, Editor.paste, bind_run]
    cases (Editor.freshened ((if replacing then [] else e.blocks).flatMap Block.ids) supplied s).1
      <;> rfl

/-- The first block has an identifier of the tree and is copied, the row is kept, and the last one
    has that of a block in the row and is copied. -/
theorem pastes_faithfully_of_collisions :
    let text (id : String) : ContentBlock := ⟨id, .text, []⟩
    let c : Column := ⟨"c", "100%", [text "1"], none⟩
    let row : Block := .row "r" ⟨.oneColumn, [c], RowLayout.initialGap, true, .initial⟩
    let supplied : List Block := [.content (text "a"), row, .content (text "1")]
    let e := Editor.start [.content (text "a")] .initial
    let known := (e.blocks ++ supplied).flatMap Block.allIds
    let e' := ((Operation.paste supplied false).run e .tally).1.2
    Supply.tally.Fresh known ∧ e'.selection = .block "ii" ∧
      e'.blocks = e.blocks ++ [.content (text "ii"), row, .content (text "iii")] ∧
      ∃ (parts : List (List String)) (added : List Block), AllNew known parts.flatten ∧
        e'.blocks = e.blocks ++ added ∧
        ∀ i b, supplied[i]? = some b → ∃ part b', parts[i]? = some part ∧ added[i]? = some b' ∧
          Joined ((e.blocks ++ added.take i).flatMap Block.ids) b part b' := by
  intro text c row supplied e known e'
  have hfresh : Supply.tally.Fresh known := Supply.tally_fresh 0 (by decide)
  obtain ⟨parts, added, s', -, -, -, hnew, hjoined, hrun⟩ :=
    pastes_faithfully e supplied false .tally
  refine ⟨hfresh, by rfl, by rfl, parts, added, hnew known hfresh, ?_, hjoined⟩
  dsimp only [e']
  rw [hrun]
  rfl

end Letterpress
