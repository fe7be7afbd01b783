/-
  Undo and redo over whole runs.

  * `Session.Shows`: the history of a session is that of a timeline.  `exists_shows`: in every
    session that can be reached it is one.
  * `Session.recorded` lists the trees that a run records, and `Session.stages` puts the present
    one before them.
  * `undo_redo_linear`: after a run, undo and redo go along its stages.
-/
import Letterpress.Proofs.Editor.History
import Letterpress.Proofs.Editor.Timeline

namespace Letterpress

/-! ## Sessions and timelines -/

namespace Session

variable {x : Session} {t u : Timeline} {op : Operation} {ops : List Operation}

theorem next_history (h : op.travels = false) :
    (x.next op).editor.history = if x.records op
      then x.editor.history.record (x.next op).editor.blocks else x.editor.history :=
  Operation.run_recordsIf h x.editor x.supply

/-- The history of the session is that of a timeline. -/
def Shows (x : Session) (t : Timeline) : Prop := x.editor.history = t.history

theorem Shows.next_of_records (h : x.Shows t) (hop : op.travels = false)
    (hr : x.records op = true) : (x.next op).Shows (t.record (x.next op).editor.blocks) := by
  rw [Shows, next_history hop, if_pos hr, h, Timeline.history_record]

theorem Shows.next_of_not_records (h : x.Shows t) (hop : op.travels = false)
    (hr : x.records op = false) : (x.next op).Shows t := by
  rw [Shows, next_history hop, if_neg (by simp [hr])]
  exact h

/-- An operation that may be refused, when it is not. -/
theorem next_of_settle_some {changed : Option Editor} {e' : Editor}
    (hrun : op.run x.editor = pure (x.editor.settle changed)) (h : changed = some e') :
    x.answer op = .accepted ∧ x.next op = ⟨e', x.supply⟩ := by
  subst h
  simp only [answer, next, hrun]
  exact ⟨rfl, rfl⟩

/-- An operation that may be refused, when it is. -/
theorem next_of_settle_none {changed : Option Editor}
    (hrun : op.run x.editor = pure (x.editor.settle changed)) (h : changed = none) :
    x.answer op = .refused ∧ x.next op = x := by
  subst h
  simp only [answer, next, hrun]
  exact ⟨rfl, rfl⟩

/-- Travelling shows the timeline whose history is found. -/
theorem shows_of_found {found : Option (List Block × History)}
    (hrun : op.run x.editor = pure (x.editor.settle (found.map x.editor.restored)))
    (h : found = some (u.present, u.history)) :
    x.answer op = .accepted ∧ (x.next op).Shows u ∧ (x.next op).editor.blocks = u.present := by
  have hx : found.map x.editor.restored = some (x.editor.restored (u.present, u.history)) := by
    rw [h]
    rfl
  obtain ⟨hanswer, hnext⟩ := next_of_settle_some hrun hx
  rw [hnext]
  exact ⟨hanswer, rfl, rfl⟩

theorem Shows.undo (h : x.Shows t) (hu : t.undo? = some u) :
    x.answer .undo = .accepted ∧ (x.next .undo).Shows u ∧
      (x.next .undo).editor.blocks = u.present := by
  refine shows_of_found rfl ?_
  rw [h, Timeline.history_undo?, hu]
  rfl

theorem Shows.undo_none (h : x.Shows t) (hu : t.undo? = none) :
    x.answer .undo = .refused ∧ x.next .undo = x := by
  have hx : x.editor.undo? = none := by
    rw [Editor.undo?, h, Timeline.history_undo?, hu]
    rfl
  exact next_of_settle_none rfl hx

theorem Shows.redo (h : x.Shows t) (hu : t.redo? = some u) :
    x.answer .redo = .accepted ∧ (x.next .redo).Shows u ∧
      (x.next .redo).editor.blocks = u.present := by
  refine shows_of_found rfl ?_
  rw [h, Timeline.history_redo?, hu]
  rfl

theorem Shows.redo_none (h : x.Shows t) (hu : t.redo? = none) :
    x.answer .redo = .refused ∧ x.next .redo = x := by
  have hx : x.editor.redo? = none := by
    rw [Editor.redo?, h, Timeline.history_redo?, hu]
    rfl
  exact next_of_settle_none rfl hx

/-- Each operation leads from a timeline to a timeline. -/
theorem Shows.exists_next (h : x.Shows t) (op : Operation) : ∃ u, (x.next op).Shows u := by
  cases hop : op.travels with
  | false =>
    cases hr : x.records op with
    | true => exact ⟨_, h.next_of_records hop hr⟩
    | false => exact ⟨_, h.next_of_not_records hop hr⟩
  | true =>
    cases op with
    | undo =>
      cases hu : t.undo? with
      | none => exact ⟨t, by rw [(h.undo_none hu).2]; exact h⟩
      | some u => exact ⟨u, (h.undo hu).2.1⟩
    | redo =>
      cases hu : t.redo? with
      | none => exact ⟨t, by rw [(h.redo_none hu).2]; exact h⟩
      | some u => exact ⟨u, (h.redo hu).2.1⟩
    | _ => cases hop

/-- In every session that can be reached the history is that of a timeline. -/
theorem exists_shows (blocks : List Block) (settings : Settings) (supply : Supply)
    (ops : List Operation) : ∃ t, ((start blocks settings supply).after ops).Shows t := by
  suffices h : ∀ x t, Shows x t → ∃ u, (x.after ops).Shows u from
    h _ (.start blocks) Timeline.history_start.symm
  induction ops with
  | nil => exact fun x t h => ⟨t, h⟩
  | cons op ops ih =>
    intro x t h
    obtain ⟨u, hu⟩ := h.exists_next op
    exact ih _ u hu

/-! ## Runs -/

/-- What a run of operations answers. -/
def answers (x : Session) : List Operation → List Answer
  | [] => []
  | op :: ops => x.answer op :: (x.next op).answers ops

/-- The trees that a run records, each as it is right after the operation that records it. -/
def recorded (x : Session) : List Operation → List (List Block)
  | [] => []
  | op :: ops =>
    let later := (x.next op).recorded ops
    if x.records op then (x.next op).editor.blocks :: later else later

/-- The tree that the history has at present, and those that a run records after it. -/
def stages (x : Session) (ops : List Operation) : List (List Block) :=
  x.editor.history.snapshots[x.editor.history.index]?.toList ++ x.recorded ops

theorem answers_append (x : Session) (ops later : List Operation) :
    x.answers (ops ++ later) = x.answers ops ++ (x.after ops).answers later := by
  induction ops generalizing x with
  | nil => rfl
  | cons op ops ih => simp only [List.cons_append, answers, after_cons, ih]

theorem Shows.after (h : x.Shows t) (hops : ∀ op ∈ ops, op.travels = false) :
    (x.after ops).Shows (t.recordAll (x.recorded ops)) := by
  induction ops generalizing x t with
  | nil => exact h
  | cons op ops ih =>
    have hop := hops op List.mem_cons_self
    have hops' := fun o ho => hops o (List.mem_cons_of_mem op ho)
    rw [after_cons, recorded]
    cases hr : x.records op with
    | true => exact ih (h.next_of_records hop hr) hops'
    | false => exact ih (h.next_of_not_records hop hr) hops'

theorem Shows.stages (h : x.Shows t) (ops : List Operation) :
    x.stages ops = t.present :: x.recorded ops := by
  rw [Session.stages, h, Timeline.getElem?_index]
  rfl

/-- As many undos as there are trees before the present one are all accepted. -/
theorem Shows.undos (h : x.Shows t) {k : Nat} (hk : k ≤ t.past.length) :
    x.answers (.replicate k .undo) = .replicate k .accepted ∧
      (x.after (.replicate k .undo)).Shows (t.back k) ∧
      (1 ≤ k → (x.after (.replicate k .undo)).editor.blocks = (t.back k).present) := by
  induction k with
  | zero => exact ⟨rfl, h, by simp⟩
  | succ k ih =>
    obtain ⟨hanswers, hshows, -⟩ := ih (Nat.le_of_succ_le hk)
    obtain ⟨hanswer, hnext, hblocks⟩ := hshows.undo (Timeline.undo?_back hk)
    rw [List.replicate_succ', answers_append, after_append, hanswers, List.replicate_succ']
    exact ⟨congrArg (_ ++ [·]) hanswer, hnext, fun _ => hblocks⟩

/-- After several undos as many redos are all accepted, and each takes back one of them. -/
theorem Shows.redos {k : Nat} (h : x.Shows (t.back k)) (hk : k ≤ t.past.length) {j : Nat}
    (hj : j ≤ k) :
    x.answers (.replicate j .redo) = .replicate j .accepted ∧
      (x.after (.replicate j .redo)).Shows (t.back (k - j)) ∧
      (1 ≤ j → (x.after (.replicate j .redo)).editor.blocks = (t.back (k - j)).present) := by
  induction j with
  | zero => exact ⟨rfl, h, by simp⟩
  | succ j ih =>
    obtain ⟨hanswers, hshows, -⟩ := ih (Nat.le_of_succ_le hj)
    have hback : (t.back (k - j)).redo? = some (t.back (k - (j + 1))) := by
      have hstep := t.redo?_back (k := k - (j + 1)) (by omega)
      rwa [show k - (j + 1) + 1 = k - j by omega] at hstep
    obtain ⟨hanswer, hnext, hblocks⟩ := hshows.redo hback
    rw [List.replicate_succ', answers_append, after_append, hanswers, List.replicate_succ']
    exact ⟨congrArg (_ ++ [·]) hanswer, hnext, fun _ => hblocks⟩

/-- The session after a run and several undos. -/
def back (x : Session) (ops : List Operation) (k : Nat) : Session :=
  (x.after ops).after (.replicate k .undo)

/-- Undo and redo go along the stages of a run that starts at `x`. -/
structure Linear (x : Session) (ops : List Operation) : Prop where
  /-- There is a present tree. -/
  inRange : x.editor.history.snapshots ≠ [] ∧
    x.editor.history.index < x.editor.history.snapshots.length
  /-- The history has the trees up to the present one, and then those that the run records. -/
  snapshots : x.recorded ops ≠ [] → (x.after ops).editor.history.snapshots =
    x.editor.history.snapshots.take (x.editor.history.index + 1) ++ x.recorded ops
  /-- A run that records nothing leaves the history as it is. -/
  unrecorded : x.recorded ops = [] → (x.after ops).editor.history = x.editor.history
  /-- New props are in no snapshot as long as nothing is recorded. -/
  props : ∀ id updates, ((x.after ops).next (.update id updates)).editor.history =
    (x.after ops).editor.history
  /-- `k` undos lead to the stage that is `k` before the last one. -/
  undo : ∀ k, 1 ≤ k → k ≤ (x.recorded ops).length →
    (x.after ops).answers (.replicate k .undo) = .replicate k .accepted ∧
      (x.stages ops)[(x.recorded ops).length - k]? = some (x.back ops k).editor.blocks
  /-- `j` redos after them lead `j` stages forward again. -/
  redo : ∀ k j, 1 ≤ j → j ≤ k → k ≤ (x.recorded ops).length →
    (x.back ops k).answers (.replicate j .redo) = .replicate j .accepted ∧
      (x.stages ops)[(x.recorded ops).length - k + j]? =
        some ((x.back ops k).after (.replicate j .redo)).editor.blocks
  /-- A redo more than there were undos is refused, and changes nothing. -/
  refused : ∀ k, 1 ≤ k → k ≤ (x.recorded ops).length →
    ((x.back ops k).after (.replicate k .redo)).answer .redo = .refused ∧
      ((x.back ops k).after (.replicate k .redo)).next .redo =
        (x.back ops k).after (.replicate k .redo)
  /-- The first record after `k` undos takes the place of the `k` snapshots that were undone. -/
  branch : ∀ k, 1 ≤ k → k ≤ (x.recorded ops).length → ∀ quiet op,
    (∀ o ∈ quiet, o.travels = false) → (x.back ops k).recorded quiet = [] →
    op.travels = false → ((x.back ops k).after quiet).records op = true →
    let z := ((x.back ops k).after quiet).next op
    z.editor.history.snapshots =
        (x.after ops).editor.history.snapshots.take
          ((x.after ops).editor.history.snapshots.length - k) ++ [z.editor.blocks] ∧
      z.answer .redo = .refused ∧ z.next .redo = z

theorem Shows.back (h : x.Shows t) (hops : ∀ op ∈ ops, op.travels = false) {k : Nat}
    (hk : k ≤ (x.recorded ops).length) :
    (x.after ops).answers (.replicate k .undo) = .replicate k .accepted ∧
      (x.back ops k).Shows ((t.recordAll (x.recorded ops)).back k) ∧
      (1 ≤ k → (x.back ops k).editor.blocks =
        ((t.recordAll (x.recorded ops)).back k).present) := by
  have hpast := t.length_past_recordAll (x.recorded ops)
  exact (h.after hops).undos (by omega)

theorem Shows.getElem?_stages (h : x.Shows t) (ops : List Operation) (i : Nat) :
    (t.recordAll (x.recorded ops)).trees[t.past.length + i]? = (x.stages ops)[i]? := by
  rw [t.trees_recordAll, h.stages, Timeline.trees, List.append_assoc, List.singleton_append,
    List.getElem?_append_right (by simp)]
  simp

/-- The stages are the trees that steps back lead to, in reverse. -/
theorem Shows.stage_back (h : x.Shows t) {k : Nat} (hk : k ≤ (x.recorded ops).length) :
    (x.stages ops)[(x.recorded ops).length - k]? =
      some ((t.recordAll (x.recorded ops)).back k).present := by
  have hpast := t.length_past_recordAll (x.recorded ops)
  rw [← Timeline.getElem?_trees_back (by omega), ← h.getElem?_stages]
  congr 1
  omega

/-- The first record after several steps back keeps the trees that are left of them. -/
theorem Shows.snapshots_branch {k : Nat} (h : x.Shows t) (hfuture : t.future = [])
    (hk : k ≤ t.past.length) (blocks : List Block) :
    ((t.back k).record blocks).history.snapshots =
      x.editor.history.snapshots.take (x.editor.history.snapshots.length - k) ++ [blocks] := by
  have hx : x.editor.history.snapshots = t.trees := by
    rw [h, Timeline.history, hfuture, List.append_nil]
  rw [Timeline.snapshots_record, Timeline.trees_back hk, hx, Timeline.length_trees]

/-- **Undo and redo are linear**: in every session that can be reached, and after every run from
    there that does not travel itself, they go along the stages of the run. -/
theorem undo_redo_linear (blocks : List Block) (settings : Settings) (supply : Supply)
    (before : List Operation) {ops : List Operation} (hops : ∀ op ∈ ops, op.travels = false) :
    ((start blocks settings supply).after before).Linear ops := by
  obtain ⟨t, h⟩ := exists_shows blocks settings supply before
  generalize (start blocks settings supply).after before = x at h
  have hy := h.after hops
  have hpast := t.length_past_recordAll (x.recorded ops)
  have hfuture : ∀ k, 1 ≤ k → k ≤ (x.recorded ops).length →
      (t.recordAll (x.recorded ops)).future = [] :=
    fun k hk hn => Timeline.future_recordAll (List.ne_nil_of_length_pos (by omega))
  constructor
  case inRange =>
    have hlt := t.index_lt_length
    rw [← h] at hlt
    exact ⟨List.ne_nil_of_length_pos (by omega), hlt⟩
  case snapshots =>
    intro hne
    rw [hy, h, Timeline.take_snapshots, Timeline.history, Timeline.future_recordAll hne,
      List.append_nil, Timeline.trees_recordAll]
  case unrecorded =>
    intro hnil
    rw [hnil] at hy
    exact hy.trans h.symm
  case props => exact fun id updates => next_history rfl
  case undo =>
    intro k hk hn
    obtain ⟨hanswers, -, hblocks⟩ := h.back hops hn
    exact ⟨hanswers, by rw [hblocks hk, h.stage_back hn]⟩
  case redo =>
    intro k j hj hjk hn
    obtain ⟨-, hback, -⟩ := h.back hops hn
    obtain ⟨hanswers, -, hblocks⟩ := hback.redos (by omega) hjk
    refine ⟨hanswers, ?_⟩
    rw [hblocks hj, ← h.stage_back (by omega)]
    congr 1
    omega
  case refused =>
    intro k hk hn
    obtain ⟨-, hback, -⟩ := h.back hops hn
    obtain ⟨-, hshows, -⟩ := hback.redos (by omega) (Nat.le_refl k)
    rw [Nat.sub_self, Timeline.back_zero] at hshows
    exact hshows.redo_none (Timeline.redo?_eq_none (hfuture k hk hn))
  case branch =>
    intro k hk hn quiet op hquiet hnil hop hr
    obtain ⟨-, hback, -⟩ := h.back hops hn
    have hshows := hback.after hquiet
    rw [hnil] at hshows
    have hz := hshows.next_of_records hop hr
    refine ⟨?_, hz.redo_none (Timeline.redo?_eq_none rfl)⟩
    rw [hz]
    exact (h.after hops).snapshots_branch (hfuture k hk hn) (by omega) _

/-- Two records with an edit of props between them: an undo drops the edit, and two lead back to
    the start. -/
theorem undo_redo_linear_of_two_pastes :
    let x := (start [] .initial ⟨fun n => (n + 1).repr, 0⟩).after [.hover (some "a"), .undo]
    let run : List Operation := [.paste [.content ⟨"a", .text, []⟩] false,
      .update "a" [("content", .string "edited")], .paste [.content ⟨"b", .text, []⟩] false]
    (∀ op ∈ run, op.travels = false) ∧ x.Linear run ∧ (x.recorded run).length = 2 ∧
      (x.back run 1).editor.blocks.map Block.props = [[]] ∧ (x.back run 2).editor.blocks = [] := by
  have hrun : ∀ op ∈ [Operation.paste [.content ⟨"a", .text, []⟩] false,
      .update "a" [("content", .string "edited")], .paste [.content ⟨"b", .text, []⟩] false],
      op.travels = false := by
    decide
  exact ⟨hrun, undo_redo_linear _ _ _ _ hrun, by rfl, by rfl, by rfl⟩

end Session

end Letterpress
