/-
  What minting takes from the supply.

  * `AllNew known ids`: the identifiers differ from each other and from all that are known.
  * `Supply.Mints s ids s'`: the supply becomes `s'` when `ids` are taken, in this order.
    `Supply.Fresh.mints`: identifiers taken from a fresh supply are new, and the supply is fresh
    again for them and for all that were there.
  * `Ensures m P`: whatever the supply is, `P` holds of the result of `m`; `Yields m Q`: also, `Q`
    holds of the identifiers that `m` takes and of its result.  Both have one rule for each way to
    build a computation.
-/
import Mathlib.Data.List.Perm.Basic
import Mathlib.Data.List.Nodup
import Mathlib.Data.List.Perm.Subperm
import Letterpress.Block.Supply

namespace Letterpress

/-! ## New identifiers -/

/-- The identifiers differ from each other and from all that are known. -/
structure AllNew (known ids : List String) : Prop where
  nodup : ids.Nodup
  unknown : ids.Disjoint known

section

variable {known ids ids' : List String}

theorem AllNew.left (h : AllNew known (ids ++ ids')) : AllNew known ids :=
  ⟨h.nodup.of_append_left, fun _ hid => h.unknown (List.mem_append_left _ hid)⟩

theorem AllNew.right (h : AllNew known (ids ++ ids')) : AllNew (ids ++ known) ids' := by
  obtain ⟨-, hnodup, hdisjoint⟩ := List.nodup_append'.mp h.nodup
  refine ⟨hnodup, fun id hid hknown => ?_⟩
  cases List.mem_append.mp hknown with
  | inl hfirst => exact hdisjoint hfirst hid
  | inr hknown => exact h.unknown (List.mem_append_right _ hid) hknown

theorem AllNew.perm (h : AllNew known ids) (hperm : ids.Perm ids') : AllNew known ids' :=
  ⟨hperm.nodup_iff.mp h.nodup, fun _ hid => h.unknown (hperm.symm.subset hid)⟩

/-- New identifiers and some that are known, each at most once, stay distinct. -/
theorem AllNew.of_subperm {kept : List String} (h : AllNew known ids)
    (hsub : ids'.Subperm (ids ++ kept)) (hkept : kept ⊆ known) (hnodup : kept.Nodup) :
    ids'.Nodup ∧ ids' ⊆ ids ++ known := by
  have hboth : (ids ++ kept).Nodup :=
    List.nodup_append'.mpr ⟨h.nodup, hnodup, fun _ hid hid' => h.unknown hid (hkept hid')⟩
  obtain ⟨l, hperm, hl⟩ := hsub
  refine ⟨hperm.nodup_iff.mp (hl.nodup hboth), fun id hid => ?_⟩
  cases List.mem_append.mp (hl.subset (hperm.symm.subset hid)) with
  | inl hid => exact List.mem_append_left _ hid
  | inr hid => exact List.mem_append_right _ (hkept hid)

end

/-! ## Supplies -/

namespace Supply

/-- The supply becomes another one when some identifiers are taken. -/
inductive Mints : Supply → List String → Supply → Prop where
  | nil (s : Supply) : Mints s [] s
  | cons {s s' : Supply} {ids : List String} :
    Mints { s with used := s.used + 1 } ids s' → Mints s (s.ids s.used :: ids) s'

theorem Mints.append {s s' s'' : Supply} {ids ids' : List String} (h : s.Mints ids s')
    (h' : s'.Mints ids' s'') : s.Mints (ids ++ ids') s'' := by
  induction h with
  | nil => exact h'
  | cons _ ih => exact .cons (ih h')

variable {s s' : Supply} {taken ids : List String}

theorem Fresh.mono {fewer : List String} (h : s.Fresh taken) (hsub : fewer ⊆ taken) :
    s.Fresh fewer :=
  ⟨h.distinct, fun i hi hm => h.new i hi (hsub hm)⟩

theorem Fresh.append {more : List String} (h : s.Fresh taken) (h' : s.Fresh more) :
    s.Fresh (taken ++ more) := by
  refine ⟨h.distinct, fun i hi hm => ?_⟩
  cases List.mem_append.mp hm with
  | inl hm => exact h.new i hi hm
  | inr hm => exact h'.new i hi hm

theorem Fresh.next (h : s.Fresh taken) :
    Fresh { s with used := s.used + 1 } (s.ids s.used :: taken) := by
  refine ⟨fun i j hi hij => h.distinct i j (Nat.le_of_succ_le hi) hij, fun i hi hm => ?_⟩
  cases List.mem_cons.mp hm with
  | inl heq => exact h.distinct s.used i (Nat.le_refl _) hi heq.symm
  | inr hm => exact h.new i (Nat.le_of_succ_le hi) hm

/-- **What a fresh supply gives** is new. -/
theorem Fresh.mints (h : s.Fresh taken) (hm : s.Mints ids s') :
    AllNew taken ids ∧ s'.Fresh (ids ++ taken) := by
  induction hm generalizing taken with
  | nil s => exact ⟨⟨List.nodup_nil, List.disjoint_nil_left _⟩, h⟩
  | @cons s s' ids _ ih =>
    obtain ⟨hnew, hfresh⟩ := ih h.next
    refine ⟨⟨List.nodup_cons.mpr ⟨fun hid => ?_, hnew.nodup⟩, fun id hid ht => ?_⟩, ?_⟩
    · exact hnew.unknown hid List.mem_cons_self
    · cases List.mem_cons.mp hid with
      | inl heq => exact h.new s.used (Nat.le_refl _) (heq ▸ ht)
      | inr hid => exact hnew.unknown hid (List.mem_cons_of_mem _ ht)
    · exact hfresh.mono (List.perm_middle.symm.subset)

end Supply

/-! ## Computations -/

namespace Minting

variable {α β : Type}

theorem bind_run (m : Minting α) (f : α → Minting β) (s : Supply) :
    (m >>= f) s = f (m s).1 (m s).2 := rfl

/-- `P` holds of the result of the computation. -/
def Ensures (m : Minting α) (P : α → Prop) : Prop := ∀ s, P (m s).1

theorem ensures_pure {P : α → Prop} {a : α} (h : P a) : Ensures (pure a) P := fun _ => h

theorem ensures_bind {R : β → Prop} {m : Minting α} {f : α → Minting β}
    (hf : ∀ a, Ensures (f a) R) : Ensures (m >>= f) R :=
  fun s => hf (m s).1 (m s).2

theorem Ensures.bind {P : α → Prop} {R : β → Prop} {m : Minting α} {f : α → Minting β}
    (h : Ensures m P) (hf : ∀ a, P a → Ensures (f a) R) : Ensures (m >>= f) R :=
  fun s => hf (m s).1 (h s) (m s).2

/-- `Q` holds of the identifiers that the computation takes and of its result. -/
def Yields (m : Minting α) (Q : List String → α → Prop) : Prop :=
  ∀ s, ∃ ids, s.Mints ids (m s).2 ∧ Q ids (m s).1

variable {m : Minting α} {f : α → Minting β} {P Q : List String → α → Prop}

theorem Yields.imp (h : Yields m P) (hPQ : ∀ ids a, P ids a → Q ids a) : Yields m Q := by
  intro s
  obtain ⟨ids, hm, hP⟩ := h s
  exact ⟨ids, hm, hPQ ids _ hP⟩

theorem Yields.and_ensures {P : α → Prop} (h : Yields m Q) (h' : Ensures m P) :
    Yields m fun ids a => Q ids a ∧ P a := by
  intro s
  obtain ⟨ids, hm, hQ⟩ := h s
  exact ⟨ids, hm, hQ, h' s⟩

theorem yields_pure {a : α} (h : Q [] a) : Yields (pure a) Q :=
  fun s => ⟨[], .nil s, h⟩

theorem yields_mint : Yields mint fun ids id => ids = [id] :=
  fun s => ⟨[s.ids s.used], .cons (.nil _), rfl⟩

theorem Yields.bind {R : List String → β → Prop} (h : Yields m P)
    (hf : ∀ ids a, P ids a → Yields (f a) fun ids' b => R (ids ++ ids') b) :
    Yields (m >>= f) R := by
  intro s
  obtain ⟨ids, hm, hP⟩ := h s
  obtain ⟨ids', hm', hR⟩ := hf ids _ hP (m s).2
  exact ⟨ids ++ ids', hm.append hm', hR⟩

theorem Yields.bind_pure {R : List String → β → Prop} {g : α → β} (h : Yields m P)
    (hg : ∀ ids a, P ids a → R ids (g a)) : Yields (m >>= fun a => pure (g a)) R :=
  h.bind fun ids a ha => yields_pure (by rw [List.append_nil]; exact hg ids a ha)

end Minting

end Letterpress
