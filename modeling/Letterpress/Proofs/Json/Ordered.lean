/-
  Values whose objects are maps.

  * `Dict.ordered_cons`: the keys of a map ascend; `Dict.ordered_ofPairs`: pairs give a map.
  * `Json.Ordered`: every object inside a value is a map, so that no key is repeated.
  * `Json.record?_object_of_ordered`: such an object has the fields of every record.
  * `Json.ordered_of_parse?`: what is read from text is such a value.
-/
import Letterpress.Json.Parser
import Letterpress.Json.Record

namespace Letterpress

/-! ## Maps -/

namespace Dict

variable {α : Type}

theorem ordered_cons {m : String × α} {ms : Dict α} :
    Ordered (m :: ms) ↔ (∀ m' ∈ ms, m.1 < m'.1) ∧ Ordered ms := by
  induction ms generalizing m with
  | nil => simp [Ordered]
  | cons m' ms ih =>
    rw [Ordered, List.forall_mem_cons, and_assoc]
    refine and_congr_right fun hlt => ?_
    constructor
    · intro h
      exact ⟨fun n hn => String.lt_trans hlt ((ih.1 h).1 n hn), h⟩
    · exact And.right

theorem insert_subset {key : String} {value : α} {ms : Dict α} :
    ∀ m ∈ insert key value ms, m = (key, value) ∨ m ∈ ms := by
  induction ms with
  | nil => simp [insert]
  | cons m ms ih =>
    intro n hn
    rw [insert] at hn
    split at hn
    · rcases List.mem_cons.1 hn with h | h
      · exact .inl h
      · exact .inr (List.mem_cons_of_mem _ h)
    · split at hn
      · exact List.mem_cons.1 hn
      · rcases List.mem_cons.1 hn with rfl | h
        · exact .inr List.mem_cons_self
        · exact (ih n h).imp_right (List.mem_cons_of_mem _)

theorem ordered_insert {key : String} {value : α} {ms : Dict α} (h : ms.Ordered) :
    (insert key value ms).Ordered := by
  induction ms with
  | nil => trivial
  | cons m ms ih =>
    obtain ⟨hlt, hms⟩ := ordered_cons.1 h
    rw [insert]
    split
    · rename_i hkey
      exact ordered_cons.2 ⟨hkey ▸ hlt, hms⟩
    · rename_i hne
      split
      · rename_i hless
        exact ⟨hless, h⟩
      · rename_i hless
        have hafter : m.1 < key :=
          Std.lt_of_le_of_ne (String.not_lt.1 hless) (Ne.symm hne)
        refine ordered_cons.2 ⟨fun n hn => ?_, ih hms⟩
        rcases insert_subset n hn with rfl | hn
        · exact hafter
        · exact hlt n hn

theorem ordered_extend {ms : Dict α} (h : ms.Ordered) (update : Dict α) :
    (extend ms update).Ordered := by
  induction update generalizing ms with
  | nil => exact h
  | cons m update ih => exact ih (ordered_insert h)

theorem ordered_ofPairs (pairs : List (String × α)) : (ofPairs pairs).Ordered :=
  ordered_extend (show Ordered ([] : Dict α) from trivial) pairs

theorem mem_extend {ms update : Dict α} : ∀ m ∈ extend ms update, m ∈ ms ∨ m ∈ update := by
  induction update generalizing ms with
  | nil => exact fun m hm => .inl hm
  | cons n update ih =>
    intro m hm
    rcases ih m hm with h | h
    · rcases insert_subset m h with rfl | h
      · exact .inr List.mem_cons_self
      · exact .inl h
    · exact .inr (List.mem_cons_of_mem n h)

theorem mem_ofPairs {pairs : List (String × α)} : ∀ m ∈ ofPairs pairs, m ∈ pairs :=
  fun m hm => (mem_extend m hm).resolve_left List.not_mem_nil

theorem mem_of_get? {ms : Dict α} {key : String} {value : α} (h : ms.get? key = some value) :
    (key, value) ∈ ms := by
  induction ms with
  | nil => cases h
  | cons m ms ih =>
    rw [get?] at h
    split at h
    · rename_i hkey
      cases h
      rw [← hkey]
      exact List.mem_cons_self
    · exact List.mem_cons_of_mem _ (ih h)

theorem get?_eq_none_iff {ms : Dict α} {key : String} :
    ms.get? key = none ↔ key ∉ ms.map (·.1) := by
  induction ms with
  | nil => exact iff_of_true rfl List.not_mem_nil
  | cons m ms ih =>
    rw [get?, List.map_cons, List.mem_cons, not_or, ← ih]
    split
    · rename_i hkey
      exact iff_of_false (Option.some_ne_none _) fun h => h.1 hkey.symm
    · rename_i hkey
      exact (and_iff_right (Ne.symm hkey)).symm

/-- A map has each key once. -/
theorem Ordered.nodup_keys {ms : Dict α} (h : ms.Ordered) : (ms.map (·.1)).Nodup := by
  induction ms with
  | nil => exact List.nodup_nil
  | cons m ms ih =>
    obtain ⟨hlt, hms⟩ := ordered_cons.1 h
    rw [List.map_cons, List.nodup_cons]
    refine ⟨fun hmem => ?_, ih hms⟩
    obtain ⟨m', hm', heq⟩ := List.mem_map.1 hmem
    exact String.lt_irrefl _ (heq ▸ hlt m' hm')

end Dict

namespace Json

theorem occurrences_cons (name : String) (m : String × Json) (ms : Members) :
    occurrences name (m :: ms) = (if m.1 = name then 1 else 0) + occurrences name ms := by
  rw [occurrences, List.filter_cons]
  by_cases h : m.1 = name
  · simp [h, occurrences, Nat.add_comm]
  · simp [h, occurrences]

theorem occurrences_eq_zero {name : String} {ms : Members} (h : ∀ m ∈ ms, name < m.1) :
    occurrences name ms = 0 := by
  rw [occurrences, List.length_eq_zero_iff, List.filter_eq_nil_iff]
  intro m hm
  rw [decide_eq_true_eq]
  rintro rfl
  exact String.lt_irrefl _ (h m hm)

theorem occurrences_le_one {ms : Members} (h : ms.Ordered) (name : String) :
    occurrences name ms ≤ 1 := by
  induction ms with
  | nil => exact Nat.zero_le 1
  | cons m ms ih =>
    obtain ⟨hlt, hms⟩ := Dict.ordered_cons.1 h
    rw [occurrences_cons]
    by_cases hname : m.1 = name
    · have hrest := occurrences_eq_zero (hname ▸ hlt)
      rw [if_pos hname]
      omega
    · rw [if_neg hname, Nat.zero_add]
      exact ih hms

/-! ## Values -/

mutual

/-- Every object in the value has its keys in ascending order, once each. -/
def Ordered : Json → Prop
  | .null | .bool _ | .number _ | .string _ => True
  | .array items => ItemsOrdered items
  | .object ms => Dict.Ordered ms ∧ MembersOrdered ms

/-- So it is for the items. -/
def ItemsOrdered : List Json → Prop
  | [] => True
  | v :: vs => v.Ordered ∧ ItemsOrdered vs

/-- So it is for the values of the members. -/
def MembersOrdered : List (String × Json) → Prop
  | [] => True
  | (_, v) :: ms => v.Ordered ∧ MembersOrdered ms

end

theorem itemsOrdered_iff {items : List Json} : ItemsOrdered items ↔ ∀ v ∈ items, v.Ordered := by
  induction items with
  | nil => simp [ItemsOrdered]
  | cons v vs ih => rw [ItemsOrdered, List.forall_mem_cons, ih]

theorem membersOrdered_iff {ms : List (String × Json)} :
    MembersOrdered ms ↔ ∀ m ∈ ms, m.2.Ordered := by
  induction ms with
  | nil => simp [MembersOrdered]
  | cons m ms ih => rw [MembersOrdered, List.forall_mem_cons, ih]

theorem ordered_of_get? {ms : Members} (h : (Json.object ms).Ordered) {key : String} {v : Json}
    (hv : ms.get? key = some v) : v.Ordered := by
  rw [Ordered] at h
  exact membersOrdered_iff.1 h.2 _ (Dict.mem_of_get? hv)

theorem ordered_of_mem {items : List Json} (h : (Json.array items).Ordered) {v : Json}
    (hv : v ∈ items) : v.Ordered := by
  rw [Ordered] at h
  exact itemsOrdered_iff.1 h v hv

theorem ordered_members {ms : Members} (h : (Json.object ms).Ordered) : ms.Ordered := by
  rw [Ordered] at h
  exact h.1

/-- An object that repeats no key has the fields of every record. -/
theorem record?_object_of_ordered {ms : Members} (h : ms.Ordered) (fields : List String) :
    (Json.object ms).record? fields = some (fields.map ms.get?) := by
  rw [record?, if_pos]
  rw [List.all_eq_true]
  intro name _
  rw [decide_eq_true_eq]
  exact occurrences_le_one h name

/-! ## Values of texts -/

mutual

theorem Written.ordered_of_value? {depth : Nat} :
    ∀ {w : Written} {v : Json}, w.value? depth = some v → v.Ordered
  | .null, v, h => by
    rw [Written.value?] at h
    cases h
    exact trivial
  | .bool b, v, h => by
    rw [Written.value?] at h
    cases h
    exact trivial
  | .number n, v, h => by
    rw [Written.value?] at h
    obtain ⟨n, -, rfl⟩ := Option.map_eq_some_iff.1 h
    exact trivial
  | .string s, v, h => by
    rw [Written.value?] at h
    obtain ⟨s, -, rfl⟩ := Option.map_eq_some_iff.1 h
    exact trivial
  | .array items, v, h => by
    rw [Written.value?] at h
    split at h
    · cases h
    · obtain ⟨vs, hvs, rfl⟩ := Option.map_eq_some_iff.1 h
      rw [Ordered]
      exact itemsOrdered_iff.2 (Written.ordered_of_itemValues? hvs)
  | .object ms, v, h => by
    rw [Written.value?] at h
    split at h
    · cases h
    · obtain ⟨pairs, hpairs, rfl⟩ := Option.map_eq_some_iff.1 h
      rw [Ordered]
      refine ⟨Dict.ordered_ofPairs pairs, membersOrdered_iff.2 fun m hm => ?_⟩
      exact Written.ordered_of_memberValues? hpairs m (Dict.mem_ofPairs m hm)

theorem Written.ordered_of_itemValues? {depth : Nat} :
    ∀ {ws : List Written} {vs : List Json}, Written.itemValues? depth ws = some vs →
      ∀ v ∈ vs, v.Ordered
  | [], vs, h => by
    rw [Written.itemValues?] at h
    cases h
    exact fun v hv => absurd hv List.not_mem_nil
  | w :: ws, vs, h => by
    rw [Written.itemValues?] at h
    obtain ⟨v, hv, h⟩ := Option.bind_eq_some_iff.1 h
    obtain ⟨rest, hrest, h⟩ := Option.bind_eq_some_iff.1 h
    cases h
    exact List.forall_mem_cons.2
      ⟨Written.ordered_of_value? hv, Written.ordered_of_itemValues? hrest⟩

theorem Written.ordered_of_memberValues? {depth : Nat} :
    ∀ {ws : List (Option String × Written)} {ms : List (String × Json)},
      Written.memberValues? depth ws = some ms → ∀ m ∈ ms, m.2.Ordered
  | [], ms, h => by
    rw [Written.memberValues?] at h
    cases h
    exact fun m hm => absurd hm List.not_mem_nil
  | (k, w) :: ws, ms, h => by
    rw [Written.memberValues?] at h
    obtain ⟨key, -, h⟩ := Option.bind_eq_some_iff.1 h
    obtain ⟨v, hv, h⟩ := Option.bind_eq_some_iff.1 h
    obtain ⟨rest, hrest, h⟩ := Option.bind_eq_some_iff.1 h
    cases h
    exact List.forall_mem_cons.2
      ⟨Written.ordered_of_value? hv, Written.ordered_of_memberValues? hrest⟩

end

/-- The value of a text is ordered. -/
theorem ordered_of_parse? {s : String} {v : Json} (h : parse? s = some v) : v.Ordered := by
  obtain ⟨w, -, hv⟩ := Option.bind_eq_some_iff.1 h
  exact Written.ordered_of_value? hv

end Json

end Letterpress
