/-
  Fields that are written and read back.

  * `Dict.get?_ofPairs`: in a map that is built of pairs with different keys each key has its value;
    `Dict.get?_extend_of_ordered`: in a map set over another one it has the value set last.
  * `record?_record`: so a record has the fields that it was written with, absent ones included.
  * `optional_map`, `mapM_map`, `double?_real`: fields that may be missing, lists and doubles are
    read as what was written, if it holds for what they are made of.
-/
import Letterpress.Proofs.Json.Ordered

namespace Letterpress

/-! ## Maps of pairs -/

namespace Dict

variable {α : Type} {pairs : List (String × α)} {k : String}

theorem get?_extend (h : (pairs.map (·.1)).Nodup) (ms : Dict α) :
    (extend ms pairs).get? k = (get? pairs k).or (ms.get? k) := by
  induction pairs generalizing ms with
  | nil => rfl
  | cons m pairs ih =>
    obtain ⟨key, v⟩ := m
    rw [List.map_cons, List.nodup_cons] at h
    have hstep : extend ms ((key, v) :: pairs) = extend (insert key v ms) pairs := rfl
    rw [hstep, ih h.2, get?_insert, get?]
    by_cases hk : k = key
    · subst hk
      rw [get?_eq_none_iff.2 h.1, if_pos rfl, if_pos rfl]
      rfl
    · rw [if_neg hk, if_neg (Ne.symm hk)]

/-- A key that both maps have has the value of the second one. -/
theorem get?_extend_of_ordered {update : Dict α} (h : update.Ordered) (ms : Dict α)
    (key : String) : (ms.extend update).get? key = (update.get? key).or (ms.get? key) :=
  get?_extend h.nodup_keys ms

theorem get?_ofPairs (h : (pairs.map (·.1)).Nodup) : (ofPairs pairs).get? k = get? pairs k := by
  rw [ofPairs, get?_extend h]
  exact Option.or_none

end Dict

namespace Json

/-! ## Records -/

/-- The members that a record is written with. -/
def present (fields : List (String × Option Json)) : List (String × Json) :=
  fields.filterMap fun (k, v) => v.map fun v => (k, v)

theorem record_eq (fields : List (String × Option Json)) :
    record fields = .object (Dict.ofPairs (present fields)) := rfl

section

variable {fields : List (String × Option Json)}

theorem keys_present_sublist (fields : List (String × Option Json)) :
    ((present fields).map (·.1)).Sublist (fields.map (·.1)) := by
  induction fields with
  | nil => exact List.Sublist.refl _
  | cons f fields ih =>
    obtain ⟨key, field⟩ := f
    cases field with
    | none => exact ih.cons key
    | some v => exact ih.cons_cons key

theorem get?_present (h : (fields.map (·.1)).Nodup) :
    ∀ f ∈ fields, Dict.get? (present fields) f.1 = f.2 := by
  induction fields with
  | nil => exact fun f hf => absurd hf List.not_mem_nil
  | cons f fields ih =>
    obtain ⟨key, field⟩ := f
    rw [List.map_cons, List.nodup_cons] at h
    have hkey : key ∉ (present fields).map (·.1) :=
      fun hmem => h.1 ((keys_present_sublist fields).subset hmem)
    refine List.forall_mem_cons.2 ⟨?_, fun f hf => ?_⟩
    · cases field with
      | none => exact Dict.get?_eq_none_iff.2 hkey
      | some v => exact if_pos rfl
    · have hmem : f.1 ∈ fields.map (·.1) := List.mem_map_of_mem hf
      have hne : key ≠ f.1 := fun heq => h.1 (heq ▸ hmem)
      cases field with
      | none => exact ih h.2 f hf
      | some v => exact (if_neg hne).trans (ih h.2 f hf)

/-- **A record is read with the fields that it is written with**, absent ones included. -/
theorem record?_record {names : List String} (hnames : fields.map (·.1) = names)
    (h : names.Nodup) : (record fields).record? names = some (fields.map (·.2)) := by
  subst hnames
  have hkeys : ((present fields).map (·.1)).Nodup := h.sublist (keys_present_sublist fields)
  rw [record_eq, record?, if_pos]
  · rw [List.map_map]
    refine congrArg some (List.map_congr_left fun f hf => ?_)
    exact (Dict.get?_ofPairs hkeys).trans (get?_present h f hf)
  · rw [List.all_eq_true]
    intro name _
    rw [decide_eq_true_eq]
    exact occurrences_le_one (Dict.ordered_ofPairs _) name

end

/-! ## Fields -/

section

variable {α : Type} {read : Json → Option α} {write : α → Json}

theorem optional_map {o : Option α} (h : ∀ a ∈ o, write a ≠ .null ∧ read (write a) = some a) :
    optional read (o.map write) = some o := by
  cases o with
  | none => rfl
  | some a =>
    obtain ⟨hnull, hread⟩ := h a rfl
    rw [Option.map_some]
    cases hw : write a with
    | null => exact absurd hw hnull
    | _ =>
      rw [hw] at hread
      simp only [optional, hread, Option.map_some]

theorem optional_text (o : Option String) : optional text? (o.map .string) = some o := by
  cases o <;> rfl

/-- Items that are read as what was written make a list that is. -/
theorem mapM_map {m : Type → Type} [Monad m] [LawfulMonad m] {read : Json → m α} {l : List α}
    (h : ∀ a ∈ l, read (write a) = pure a) : (l.map write).mapM read = pure l := by
  induction l with
  | nil => simp
  | cons a l ih =>
    obtain ⟨ha, hl⟩ := List.forall_mem_cons.1 h
    simp [ha, ih hl]

theorem listOf?_map {l : List α} (h : ∀ a ∈ l, read (write a) = some a) :
    listOf? read (.array (l.map write)) = some l :=
  mapM_map h

end

theorem double?_real {x : Float} (h : x.isFinite = true) : double? (real x) = some x := by
  rw [real, if_pos h]
  rfl

theorem real_ne_null {x : Float} (h : x.isFinite = true) : real x ≠ .null := by
  rw [real, if_pos h]
  exact Json.noConfusion

theorem optional_double {o : Option Float} (h : ∀ x ∈ o, x.isFinite = true) :
    optional double? (o.map real) = some o :=
  optional_map fun x hx => ⟨real_ne_null (h x hx), double?_real (h x hx)⟩

end Json

end Letterpress
