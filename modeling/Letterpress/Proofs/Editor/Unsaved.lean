/-
  Unsaved changes.

  * `Editor.SameWork e e'`: the sessions have the same blocks, settings and history.
  * `Operation.edits`: the operation is one on the blocks or the settings, and not only on what is
    selected, hovered or dragged.
  * `Operation.run_dirty`: after such an operation there are unsaved changes, unless it is refused.
    `Operation.run_sameWork`: all others but a save leave the work and the flag as they are.
  * `Session.clean_session_keeps_work`: a session without unsaved changes has the work that it had
    when it was started or saved.
-/
import Letterpress.Proofs.Editor.Refusal

namespace Letterpress

/-! ## Work -/

namespace Editor

/-- The sessions have the same blocks, settings and history. -/
structure SameWork (e e' : Editor) : Prop where
  blocks : e'.blocks = e.blocks
  settings : e'.settings = e.settings
  history : e'.history = e.history

variable {e e' : Editor}

theorem SameWork.refl (e : Editor) : e.SameWork e := ⟨rfl, rfl, rfl⟩

theorem SameWork.trans {e'' : Editor} (h : e.SameWork e') (h' : e'.SameWork e'') :
    e.SameWork e'' :=
  ⟨h'.blocks.trans h.blocks, h'.settings.trans h.settings, h'.history.trans h.history⟩

theorem settle_dirty {changed : Option Editor} (h : ∀ e' ∈ changed, e'.dirty = true)
    (hanswer : (e.settle changed).1 ≠ .refused) : (e.settle changed).2.dirty = true := by
  cases changed with
  | none => exact absurd rfl hanswer
  | some e' => exact h e' rfl

theorem update?_dirty {id : String} {updates : Members} (h : e.update? id updates = some e') :
    e'.dirty = true := by
  obtain ⟨blocks, -, rfl⟩ := Option.map_eq_some_iff.1 h
  rfl

theorem updateSettings?_dirty {updates : Members} (h : e.updateSettings? updates = some e') :
    e'.dirty = true := by
  obtain ⟨settings, -, rfl⟩ := Option.map_eq_some_iff.1 h
  rfl

/-- To travel through the history is a change as well. -/
theorem restored_dirty {found : Option (List Block × History)}
    (h : found.map e.restored = some e') : e'.dirty = true := by
  obtain ⟨t, -, rfl⟩ := Option.map_eq_some_iff.1 h
  rfl

end Editor

/-! ## Operations -/

namespace Operation

open Editor

/-- The operation is one on the blocks or the settings. -/
def edits : Operation → Bool
  | selectBlock _ | selectColumn _ | hover _ | startDrag _ | aim _ | cancelDrag | markClean => false
  | _ => true

variable {op : Operation} {e : Editor} {s : Supply}

/-- **An edit that is not refused leaves unsaved changes.** -/
theorem run_dirty (hop : op.edits = true) (hanswer : (op.run e s).1.1 ≠ .refused) :
    (op.run e s).1.2.dirty = true := by
  cases hstructural : op.isStructural with
  | true => exact ((run_recorded hstructural e s).recorded hanswer).dirty
  | false =>
    cases op with
    | update id updates => exact settle_dirty (fun e' => update?_dirty) hanswer
    | updateSettings updates => exact settle_dirty (fun e' => updateSettings?_dirty) hanswer
    | undo => exact settle_dirty (fun e' => restored_dirty) hanswer
    | redo => exact settle_dirty (fun e' => restored_dirty) hanswer
    | selectBlock | selectColumn | hover | startDrag | aim | cancelDrag | markClean => cases hop
    | _ => cases hstructural

/-- What is refused or is no edit changes nothing that could be saved. -/
theorem run_sameWork (hop : op ≠ .markClean)
    (hkeeps : op.edits = false ∨ (op.run e s).1.1 = .refused) :
    e.SameWork (op.run e s).1.2 ∧ (op.run e s).1.2.dirty = e.dirty := by
  rcases hkeeps with hedits | hrefused
  · cases op with
    | markClean => exact absurd rfl hop
    | selectBlock | selectColumn | hover | startDrag | aim | cancelDrag =>
      exact ⟨⟨rfl, rfl, rfl⟩, rfl⟩
    | _ => cases hedits
  · rw [run_of_refused hrefused]
    cases op <;> exact ⟨⟨rfl, rfl, rfl⟩, rfl⟩

end Operation

/-! ## Runs -/

namespace Session

/-- The session has just been started, or just been saved. -/
inductive JustSaved : Session → Prop where
  | start (blocks : List Block) (settings : Settings) (supply : Supply) :
    JustSaved (.start blocks settings supply)
  | markClean (x : Session) : JustSaved (x.next .markClean)

variable {x : Session} {op : Operation} {ops : List Operation}

theorem JustSaved.clean (h : x.JustSaved) : x.editor.dirty = false := by
  cases h <;> rfl

/-- An operation after which there is nothing to save has changed nothing, and there was nothing to
    save before it. -/
theorem next_of_clean (hop : op ≠ .markClean) (h : (x.next op).editor.dirty = false) :
    x.editor.SameWork (x.next op).editor ∧ x.editor.dirty = false := by
  have hkeeps : op.edits = false ∨ x.answer op = .refused := by
    by_contra hedit
    rw [not_or, Bool.not_eq_false] at hedit
    have hdirty : (x.next op).editor.dirty = true := Operation.run_dirty hedit.1 hedit.2
    rw [h] at hdirty
    cases hdirty
  obtain ⟨hwork, hflag⟩ := Operation.run_sameWork hop hkeeps
  exact ⟨hwork, hflag.symm.trans h⟩

/-- So it is for a run without a save. -/
theorem after_of_clean (hops : ∀ op ∈ ops, op ≠ .markClean)
    (h : (x.after ops).editor.dirty = false) :
    x.editor.SameWork (x.after ops).editor ∧ x.editor.dirty = false := by
  induction ops generalizing x with
  | nil => exact ⟨.refl _, h⟩
  | cons op ops ih =>
    obtain ⟨hop, hops⟩ := List.forall_mem_cons.1 hops
    obtain ⟨hlater, hclean⟩ := ih hops h
    obtain ⟨hnext, hclean⟩ := next_of_clean hop hclean
    exact ⟨hnext.trans hlater, hclean⟩

/-- **A clean session has nothing to save**: if no change is unsaved after a run from a session that
    was just started or saved, blocks, settings and history are those of that session; and every
    edit that is not refused, whatever the session is, leaves unsaved changes. -/
theorem clean_session_keeps_work (hx : x.JustSaved) (hops : ∀ op ∈ ops, op ≠ .markClean) :
    x.editor.dirty = false ∧
      ((x.after ops).editor.dirty = false → x.editor.SameWork (x.after ops).editor) ∧
      ∀ (y : Session) (op : Operation), op.edits = true → y.answer op ≠ .refused →
        (y.next op).editor.dirty = true :=
  ⟨hx.clean, fun h => (after_of_clean hops h).1, fun _ _ => Operation.run_dirty⟩

/-- A drop beside all columns, an undo at the start and props for a block that is not there leave
    nothing to save; so do looking around and a move of a block to its own place.  Props for a block
    that is there do not. -/
theorem clean_session_keeps_work_of_refusals :
    let x := (start [.content ⟨"a", .text, []⟩] .initial ⟨Nat.repr, 0⟩).next .markClean
    let ops : List Operation :=
      [.hover (some "a"), .startDrag (.canvas "a"), .aim (some (.canvas 0)), .drop (.canvas 0),
       .startDrag (.canvas "a"), .drop (.column "r" "c" 0), .undo, .update "b" [], .move 0 0,
       .selectBlock (some "a")]
    x.JustSaved ∧ (∀ op ∈ ops, op ≠ .markClean) ∧ (x.after ops).editor.dirty = false ∧
      x.editor.SameWork (x.after ops).editor ∧
      ((x.after ops).next (.update "a" [])).editor.dirty = true := by
  intro x ops
  have hops : ∀ op ∈ ops, op ≠ .markClean := by simp [ops]
  have hclean : (x.after ops).editor.dirty = false := by rfl
  have hx : x.JustSaved := .markClean _
  obtain ⟨-, hwork, hedit⟩ := clean_session_keeps_work hx hops
  exact ⟨hx, hops, hclean, hwork hclean, hedit _ _ rfl (by decide +kernel)⟩

end Session

end Letterpress
