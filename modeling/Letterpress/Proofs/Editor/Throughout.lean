/-
  What holds of the tree of a session and of all its snapshots.

  * `History.Keeps`: what the history gives back is one of its snapshots.
  * `Session.Everywhere T`: `T` holds of the tree and of every snapshot.  `Everywhere.next`: an
    operation that does not travel has to keep `T` for its tree only, and to travel keeps it anyway.
-/
import Letterpress.Proofs.Editor.Undo

namespace Letterpress

namespace History

/-- What the history gives back is one of its snapshots, and it keeps them all. -/
def Keeps (h : History) (found : Option (List Block × History)) : Prop :=
  ∀ t ∈ found, t.1 ∈ h.snapshots ∧ t.2.snapshots = h.snapshots

variable (h : History)

theorem keeps_restore? (index : Nat) : h.Keeps (h.restore? index) := by
  intro t ht
  obtain ⟨blocks, hblocks, rfl⟩ := Option.map_eq_some_iff.mp ht
  exact ⟨List.mem_of_getElem? hblocks, rfl⟩

theorem keeps_undo? : h.Keeps h.undo? := by
  unfold undo?
  split
  · exact h.keeps_restore? _
  · rintro t ⟨⟩

theorem keeps_redo? : h.Keeps h.redo? := by
  unfold redo?
  split
  · exact h.keeps_restore? _
  · rintro t ⟨⟩

end History

namespace Session

variable {x : Session} {op : Operation} {T : List Block → Prop}

/-- `T` holds of the tree of the session and of all its snapshots. -/
structure Everywhere (T : List Block → Prop) (x : Session) : Prop where
  live : T x.editor.blocks
  snapshots : ∀ blocks ∈ x.editor.history.snapshots, T blocks

theorem Everywhere.start {blocks : List Block} (h : T blocks) (settings : Settings)
    (supply : Supply) : (start blocks settings supply).Everywhere T := by
  refine ⟨h, fun snapshot hmem => ?_⟩
  rw [List.mem_singleton.mp hmem]
  exact h

theorem Everywhere.imp {T' : List Block → Prop} (h : x.Everywhere T)
    (himp : ∀ blocks, T blocks → T' blocks) : x.Everywhere T' :=
  ⟨himp _ h.live, fun blocks hmem => himp _ (h.snapshots blocks hmem)⟩

/-- To travel is to show another snapshot. -/
theorem Everywhere.travel (h : x.Everywhere T) {found : Option (List Block × History)}
    (hrun : op.run x.editor = pure (x.editor.settle (found.map x.editor.restored)))
    (hfound : x.editor.history.Keeps found) : (x.next op).Everywhere T := by
  cases hx : found.map x.editor.restored with
  | none => rwa [(next_of_settle_none hrun hx).2]
  | some e' =>
    obtain ⟨t, ht, rfl⟩ := Option.map_eq_some_iff.mp hx
    obtain ⟨hmem, hsnapshots⟩ := hfound t ht
    rw [(next_of_settle_some hrun hx).2]
    refine ⟨h.snapshots t.1 hmem, fun snapshot hs => h.snapshots snapshot ?_⟩
    rw [← hsnapshots]
    exact hs

/-- **What an operation makes of the tree is all that counts**: snapshots are trees that the
    session had. -/
theorem Everywhere.next (h : x.Everywhere T)
    (hlive : op.travels = false → T (x.next op).editor.blocks) : (x.next op).Everywhere T := by
  cases htravels : op.travels with
  | false =>
    refine ⟨hlive htravels, fun blocks hmem => ?_⟩
    rw [next_history htravels] at hmem
    split at hmem
    · cases List.mem_append.mp hmem with
      | inl hold => exact h.snapshots blocks (List.mem_of_mem_take hold)
      | inr hnew =>
        rw [List.mem_singleton.mp hnew]
        exact hlive htravels
    · exact h.snapshots blocks hmem
  | true =>
    cases op with
    | undo => exact h.travel rfl x.editor.history.keeps_undo?
    | redo => exact h.travel rfl x.editor.history.keeps_redo?
    | _ => cases htravels

end Session

end Letterpress
