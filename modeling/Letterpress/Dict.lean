/-
  Maps with text keys.

  * `Dict α` is a list of pairs; all maps that the library builds or reads have their keys in
    ascending order, once each (`Dict.Ordered`).
  * `Dict.get?`, `Dict.insert`, `Dict.erase` and `Dict.extend` are the operations of a map;
    `get?_insert` says how the first two meet.

  Keys are ordered by code point, which is also the order of their UTF-8 bytes.
-/

namespace Letterpress

/-- A map from texts. -/
abbrev Dict (α : Type) := List (String × α)

namespace Dict

variable {α : Type}

/-! ## Operations -/

/-- The value of a key. -/
def get? : Dict α → String → Option α
  | [], _ => none
  | (k, v) :: ms, key => if k = key then some v else get? ms key

/-- The key is present. -/
def has (ms : Dict α) (key : String) : Bool := (ms.get? key).isSome

/-- The keys, in order. -/
def keys (ms : Dict α) : List String := ms.map (·.1)

/-- The map with `key` set to `value`; a new key goes to its place in the order. -/
def insert (key : String) (value : α) : Dict α → Dict α
  | [] => [(key, value)]
  | (k, v) :: ms =>
    if key = k then (key, value) :: ms
    else if key < k then (key, value) :: (k, v) :: ms
    else (k, v) :: insert key value ms

/-- The map without `key`. -/
def erase (key : String) (ms : Dict α) : Dict α := ms.filter fun m => m.1 ≠ key

/-- The map with the pairs of `update` set over it, one after the other. -/
def extend (ms update : Dict α) : Dict α := update.foldl (fun acc m => insert m.1 m.2 acc) ms

/-- The pairs as a map; of a repeated key the last value counts. -/
def ofPairs (pairs : List (String × α)) : Dict α := extend [] pairs

/-- The keys ascend strictly. -/
def Ordered : Dict α → Prop
  | [] => True
  | [_] => True
  | m :: m' :: ms => m.1 < m'.1 ∧ Ordered (m' :: ms)

/-! ## Laws -/

theorem get?_insert (key k : String) (value : α) (ms : Dict α) :
    (insert key value ms).get? k = if k = key then some value else ms.get? k := by
  induction ms with
  | nil => simp [insert, get?, eq_comm]
  | cons m ms ih =>
    obtain ⟨k', v'⟩ := m
    simp only [insert]
    split
    · rename_i h; subst h; simp only [get?]; grind
    · split <;> simp only [get?] <;> grind

end Dict

end Letterpress
