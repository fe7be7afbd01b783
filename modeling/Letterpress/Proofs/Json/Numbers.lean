/-
  The numbers in a value.

  * `Json.numbers` lists the numbers in a value, at any depth, and `AllNumbers p v` says that all
    of them satisfy `p`.
  * `KeptAsDouble p`: a number that is read as a double keeps `p`.  So it is for being finite
    (`keptAsDouble_finite`), as no integer within the bounds overflows.
  * What `AllNumbers` means for the parts of a record that are read and for those that are written.
-/
import Letterpress.Json.Bounds
import Letterpress.Proofs.Decimal.Range
import Letterpress.Proofs.Json.Ordered

namespace Letterpress.Json

/-! ## Numbers -/

namespace Number

/-- A number that a value can have: an integer within the bounds, or a finite double. -/
def isFinite : Number → Bool
  | .integer n => (Number.integer n).isBounded
  | .real x => x.isFinite

/-- The number is finite. -/
abbrev Finite (n : Number) : Prop := n.isFinite = true

/-- `p` holds of all finite numbers, and of the double that a number is read as. -/
structure KeptAsDouble (p : Number → Prop) : Prop where
  of_isFinite : ∀ n : Number, n.Finite → p n
  toFloat : ∀ n : Number, p n → p (.real n.toFloat)

theorem keptAsDouble_true : KeptAsDouble fun _ => True := ⟨fun _ _ => trivial, fun _ _ => trivial⟩

theorem keptAsDouble_finite : KeptAsDouble Finite := by
  refine ⟨fun _ h => h, fun n h => ?_⟩
  cases n with
  | real x => exact h
  | integer n =>
    simp only [Finite, isFinite, isBounded, Bool.and_eq_true, decide_eq_true_eq] at h
    have hlow : Decimal.signedBound = 2 ^ 63 := rfl
    have hhigh : Decimal.wordBound = 2 ^ 64 := rfl
    exact Decimal.isFinite_ofInt (by omega)

end Number

/-! ## The numbers in a value -/

mutual

/-- The numbers in a value. -/
def numbers : Json → List Number
  | .null | .bool _ | .string _ => []
  | .number n => [n]
  | .array items => itemsNumbers items
  | .object ms => membersNumbers ms

/-- The numbers in the items. -/
def itemsNumbers : List Json → List Number
  | [] => []
  | v :: vs => v.numbers ++ itemsNumbers vs

/-- The numbers in the values of the members. -/
def membersNumbers : List (String × Json) → List Number
  | [] => []
  | (_, v) :: ms => v.numbers ++ membersNumbers ms

end

/-- All numbers in the value satisfy `p`. -/
def AllNumbers (p : Number → Prop) (v : Json) : Prop := ∀ n ∈ v.numbers, p n

/-- All numbers in the value are finite. -/
def IsFinite (v : Json) : Prop := v.AllNumbers Number.Finite

instance (v : Json) : Decidable v.IsFinite :=
  inferInstanceAs (Decidable (∀ n ∈ v.numbers, n.Finite))

section

variable {p : Number → Prop}

@[simp] theorem allNumbers_null : AllNumbers p .null := by simp [AllNumbers, numbers]

@[simp] theorem allNumbers_bool (b : Bool) : AllNumbers p (.bool b) := by
  simp [AllNumbers, numbers]

@[simp] theorem allNumbers_string (s : String) : AllNumbers p (.string s) := by
  simp [AllNumbers, numbers]

@[simp] theorem allNumbers_number (n : Number) : AllNumbers p (.number n) ↔ p n := by
  simp [AllNumbers, numbers]

@[simp] theorem allNumbers_array (items : List Json) :
    AllNumbers p (.array items) ↔ ∀ v ∈ items, AllNumbers p v := by
  simp only [AllNumbers, numbers]
  induction items with
  | nil => simp [itemsNumbers]
  | cons v vs ih => rw [itemsNumbers, List.forall_mem_append, ih, List.forall_mem_cons]

@[simp] theorem allNumbers_object (ms : Members) :
    AllNumbers p (.object ms) ↔ ∀ m ∈ ms, AllNumbers p m.2 := by
  simp only [AllNumbers, numbers]
  induction ms with
  | nil => simp [membersNumbers]
  | cons m ms ih => rw [membersNumbers, List.forall_mem_append, ih, List.forall_mem_cons]

theorem allNumbers_true (v : Json) : AllNumbers (fun _ => True) v := fun _ _ => trivial

/-! ## Reading -/

variable {v : Json}

/-- The fields of a record have no other numbers. -/
theorem AllNumbers.field (h : v.AllNumbers p) {fields : List String} {vs : List (Option Json)}
    (hvs : v.record? fields = some vs) : ∀ field ∈ vs, ∀ w ∈ field, AllNumbers p w := by
  intro field hfield w hw
  cases v with
  | object ms =>
    rw [record?] at hvs
    split at hvs
    · cases hvs
      obtain ⟨name, -, rfl⟩ := List.mem_map.1 hfield
      exact (allNumbers_object ms).1 h _ (Dict.mem_of_get? hw)
    · cases hvs
  | array items =>
    rw [record?] at hvs
    split at hvs
    · cases hvs
    · cases hvs
      rcases List.mem_append.1 hfield with hmem | hmem
      · obtain ⟨w', hw', rfl⟩ := List.mem_map.1 hmem
        cases hw
        exact (allNumbers_array items).1 h w hw'
      · rw [List.eq_of_mem_replicate hmem] at hw
        cases hw
  | null => cases hvs
  | bool b => cases hvs
  | number n => cases hvs
  | string s => cases hvs

theorem AllNumbers.double? (hp : Number.KeptAsDouble p) (h : v.AllNumbers p) {x : Float}
    (hx : v.double? = some x) : p (.real x) := by
  cases v with
  | number n =>
    cases hx
    exact hp.toFloat n ((allNumbers_number n).1 h)
  | null => cases hx
  | bool b => cases hx
  | string s => cases hx
  | array items => cases hx
  | object ms => cases hx

variable {α : Type} {P : α → Prop} {read : Json → Option α} {field : Option Json}

/-- What a field that may be missing is read as. -/
theorem absent_forall {whenMissing a : α} (h : absent whenMissing read field = some a)
    (hmissing : P whenMissing) (hread : ∀ v ∈ field, ∀ a, read v = some a → P a) : P a := by
  cases field with
  | none =>
    cases h
    exact hmissing
  | some v => exact hread v rfl a h

/-- What a field that may be missing or `null` is read as. -/
theorem optional_forall {o : Option α} (h : optional read field = some o)
    (hread : ∀ v ∈ field, ∀ a, v ≠ .null → read v = some a → P a) : ∀ a ∈ o, P a := by
  intro a ha
  rcases field with _ | v
  · cases h
    cases ha
  · by_cases hv : v = .null
    · subst hv
      cases h
      cases ha
    · have hsome : (read v).map some = some o := by
        cases v with
        | null => exact absurd rfl hv
        | _ => exact h
      obtain ⟨a', ha', rfl⟩ := Option.map_eq_some_iff.1 hsome
      cases ha
      exact hread v rfl a hv ha'

theorem mapM_forall {β : Type} {read : β → Option α} {l : List β} {as : List α}
    (h : l.mapM read = some as) (hread : ∀ b ∈ l, ∀ a, read b = some a → P a) :
    ∀ a ∈ as, P a := by
  induction l generalizing as with
  | nil =>
    cases h
    exact fun a ha => absurd ha List.not_mem_nil
  | cons b l ih =>
    simp only [List.mapM_cons, Option.bind_eq_bind, Option.bind_eq_some_iff] at h
    obtain ⟨a, ha, as', has, ⟨⟩⟩ := h
    obtain ⟨hb, hl⟩ := List.forall_mem_cons.1 hread
    exact List.forall_mem_cons.2 ⟨hb a ha, ih has hl⟩

theorem listOf?_forall {as : List α} (h : listOf? read v = some as)
    (hv : v.AllNumbers p) (hread : ∀ w, w.AllNumbers p → ∀ a, read w = some a → P a) :
    ∀ a ∈ as, P a := by
  cases v with
  | array items =>
    exact mapM_forall h fun w hw => hread w ((allNumbers_array items).1 hv w hw)
  | null => cases h
  | bool b => cases h
  | number n => cases h
  | string s => cases h
  | object ms => cases h

/-! ## Writing -/

theorem allNumbers_real {x : Float} (h : p (.real x)) : AllNumbers p (real x) := by
  rw [real]
  split
  · simpa using h
  · simp

theorem allNumbers_ofPairs {pairs : List (String × Json)} (h : ∀ m ∈ pairs, AllNumbers p m.2) :
    AllNumbers p (.object (Dict.ofPairs pairs)) :=
  (allNumbers_object _).2 fun m hm => h m (Dict.mem_ofPairs m hm)

theorem allNumbers_extend {ms update : Members} (h : AllNumbers p (.object ms))
    (hupdate : AllNumbers p (.object update)) : AllNumbers p (.object (ms.extend update)) := by
  rw [allNumbers_object] at h hupdate ⊢
  intro m hm
  rcases Dict.mem_extend m hm with hm | hm
  · exact h m hm
  · exact hupdate m hm

theorem allNumbers_record {fields : List (String × Option Json)}
    (h : ∀ f ∈ fields, ∀ v ∈ f.2, AllNumbers p v) : AllNumbers p (record fields) := by
  refine allNumbers_ofPairs fun m hm => ?_
  obtain ⟨f, hf, hm⟩ := List.mem_filterMap.1 hm
  obtain ⟨v, hv, rfl⟩ := Option.map_eq_some_iff.1 hm
  exact h f hf v hv

end

end Letterpress.Json
