/-
  The history as an undo stack and a redo stack.

  * `Timeline` has the present tree between those before it and those after it, each nearest first;
    `Timeline.history` is the list with an index that stands for it.
  * `history_record`, `history_undo?` and `history_redo?`: the three operations of a history are
    those of the stacks.
  * `Timeline.recordAll` records several trees and `Timeline.back` goes several steps back.
    `redo?_back` goes forward over each of these steps again, `getElem?_trees_back` says which tree
    is reached.
-/
import Letterpress.Editor.State

namespace Letterpress

/-- A history as it is seen from its present tree. -/
structure Timeline where
  /-- The trees before the present one, the latest first. -/
  past : List (List Block)
  present : List Block
  /-- The trees after the present one, the next first. -/
  future : List (List Block)

namespace Timeline

variable {t : Timeline} {blocks : List Block}

/-- The timeline of a new session. -/
def start (blocks : List Block) : Timeline := ⟨[], blocks, []⟩

/-- The trees up to the present one, in order. -/
def trees (t : Timeline) : List (List Block) := t.past.reverse ++ [t.present]

/-- The list of all trees, with the index of the present one. -/
def history (t : Timeline) : History := ⟨t.trees ++ t.future, t.past.length⟩

/-- The timeline with a new tree after the present one. -/
def record (blocks : List Block) (t : Timeline) : Timeline := ⟨t.present :: t.past, blocks, []⟩

/-- One step back. -/
def undo? : Timeline → Option Timeline
  | ⟨[], _, _⟩ => none
  | ⟨before :: past, present, future⟩ => some ⟨past, before, present :: future⟩

/-- One step forward. -/
def redo? : Timeline → Option Timeline
  | ⟨_, _, []⟩ => none
  | ⟨past, present, after :: future⟩ => some ⟨present :: past, after, future⟩

theorem redo?_eq_none (h : t.future = []) : t.redo? = none := by
  obtain ⟨past, present, future⟩ := t
  subst h
  rfl

/-! ## Trees -/

@[simp] theorem length_trees : t.trees.length = t.past.length + 1 := by
  simp [trees]

theorem getElem?_trees_present : t.trees[t.past.length]? = some t.present := by
  rw [trees, List.getElem?_append_right (by simp)]
  simp

theorem trees_record : (t.record blocks).trees = t.trees ++ [blocks] := by
  simp [trees, record]

/-! ## The list with an index -/

theorem length_snapshots :
    t.history.snapshots.length = t.past.length + 1 + t.future.length := by
  simp [history]

theorem index_lt_length : t.history.index < t.history.snapshots.length := by
  have h := t.length_snapshots
  simp only [history] at h ⊢
  omega

theorem getElem?_index : t.history.snapshots[t.history.index]? = some t.present := by
  rw [history, List.getElem?_append_left (by simp)]
  exact getElem?_trees_present

theorem take_snapshots : t.history.snapshots.take (t.history.index + 1) = t.trees := by
  rw [history, List.take_left' length_trees]

theorem history_start : (start blocks).history = .start blocks := rfl

theorem history_record : t.history.record blocks = (t.record blocks).history := by
  have h : (t.record blocks).history = ⟨t.trees ++ [blocks], t.trees.length⟩ := by
    rw [history, trees_record, length_trees]
    simp [record]
  rw [h]
  simp only [History.record, take_snapshots]

theorem snapshots_record : (t.record blocks).history.snapshots = t.trees ++ [blocks] := by
  rw [history, trees_record]
  exact List.append_nil _

theorem history_undo? : t.history.undo? = t.undo?.map fun t => (t.present, t.history) := by
  obtain ⟨_ | ⟨before, past⟩, present, future⟩ := t
  · simp [history, undo?, History.undo?, History.canUndo]
  · simp [history, trees, undo?, History.undo?, History.canUndo, History.restore?]

theorem history_redo? : t.history.redo? = t.redo?.map fun t => (t.present, t.history) := by
  obtain ⟨past, present, _ | ⟨after, future⟩⟩ := t
  · simp [history, redo?, History.redo?, History.canRedo]
  · simp [history, trees, redo?, History.redo?, History.canRedo, History.restore?]

/-! ## Recording several trees -/

/-- The timeline with several trees recorded, one after the other. -/
def recordAll (added : List (List Block)) (t : Timeline) : Timeline :=
  added.foldl (fun t blocks => t.record blocks) t

theorem trees_recordAll (added : List (List Block)) :
    (t.recordAll added).trees = t.trees ++ added := by
  induction added generalizing t with
  | nil => simp [recordAll]
  | cons blocks added ih =>
    have h : t.recordAll (blocks :: added) = (t.record blocks).recordAll added := rfl
    rw [h, ih, trees_record, List.append_assoc, List.singleton_append]

theorem length_past_recordAll (added : List (List Block)) :
    (t.recordAll added).past.length = t.past.length + added.length := by
  have h := congrArg List.length (t.trees_recordAll added)
  simp only [length_trees, List.length_append] at h
  omega

theorem future_recordAll {added : List (List Block)} (h : added ≠ []) :
    (t.recordAll added).future = [] := by
  induction added generalizing t with
  | nil => exact absurd rfl h
  | cons blocks added ih =>
    cases added with
    | nil => rfl
    | cons next added => exact ih (t := t.record blocks) (by simp)

/-! ## Going back -/

/-- The timeline after several steps back, as far as there are any. -/
def back : Nat → Timeline → Timeline
  | 0, t => t
  | k + 1, t => ((back k t).undo?).getD (back k t)

@[simp] theorem back_zero : t.back 0 = t := rfl

/-- Each step back is one that can be taken forward again. -/
theorem undo?_redo? {u : Timeline} : t.undo? = some u → u.redo? = some t := by
  obtain ⟨_ | ⟨before, past⟩, present, future⟩ := t
  · exact fun h => nomatch h
  · rintro ⟨⟩
    rfl

theorem past_back (k : Nat) : (t.back k).past = t.past.drop k := by
  induction k with
  | zero => rfl
  | succ k ih =>
    rw [back, ← List.drop_drop, ← ih]
    obtain ⟨_ | ⟨before, past⟩, present, future⟩ := t.back k <;> rfl

theorem undo?_back {k : Nat} (h : k < t.past.length) :
    (t.back k).undo? = some (t.back (k + 1)) := by
  have hp : 0 < (t.back k).past.length := by
    rw [past_back, List.length_drop]
    omega
  rw [back]
  revert hp
  obtain ⟨_ | ⟨before, past⟩, present, future⟩ := t.back k
  · exact fun hp => absurd hp (Nat.lt_irrefl 0)
  · exact fun _ => rfl

theorem redo?_back {k : Nat} (h : k < t.past.length) :
    (t.back (k + 1)).redo? = some (t.back k) :=
  undo?_redo? (undo?_back h)

/-- A step back or forward leaves all trees where they are. -/
theorem snapshots_back (k : Nat) : (t.back k).history.snapshots = t.history.snapshots := by
  induction k with
  | zero => rfl
  | succ k ih =>
    rw [back, ← ih]
    obtain ⟨_ | ⟨before, past⟩, present, future⟩ := t.back k
    · rfl
    · simp [undo?, history, trees]

/-- The trees that several steps back leave before and at the present. -/
theorem trees_back {k : Nat} (h : k ≤ t.past.length) :
    (t.back k).trees = t.trees.take (t.past.length + 1 - k) := by
  have hl : (t.back k).trees.length = t.past.length + 1 - k := by
    rw [length_trees, past_back, List.length_drop]
    omega
  have hs := t.snapshots_back k
  simp only [history] at hs
  calc (t.back k).trees
      = ((t.back k).trees ++ (t.back k).future).take (t.past.length + 1 - k) :=
        (List.take_left' hl).symm
    _ = (t.trees ++ t.future).take (t.past.length + 1 - k) := by rw [hs]
    _ = t.trees.take (t.past.length + 1 - k) :=
        List.take_append_of_le_length (by rw [length_trees]; omega)

theorem getElem?_trees_back {k : Nat} (h : k ≤ t.past.length) :
    t.trees[t.past.length - k]? = some (t.back k).present := by
  have hb := (t.back k).getElem?_trees_present
  rw [trees_back h, past_back, List.length_drop, List.getElem?_take, if_pos (by omega)] at hb
  exact hb

end Timeline

end Letterpress
