/-
  Identifiers over whole runs.

  * `Tidy known blocks`: the identifiers of a tree are distinct, and all of them are known.
    `Operation.run_tidy`: an operation that does not travel leads from a tidy tree to a tidy tree.
  * `Session.Sound`: the tree of a session and all snapshots of it are tidy, and what the supply
    has left is not known yet.
  * `Session.AdmitsAll`: what is asked of a run and of the supply.  `ids_distinct_throughout`: at
    each point of such a run, identifiers are distinct.
-/
import Letterpress.Proofs.Editor.Regrowth
import Letterpress.Proofs.Editor.Throughout

namespace Letterpress

open Minting Editing

/-! ## Tidy trees -/

/-- The identifiers of a tree are distinct, and all of them are known. -/
structure Tidy (known : List String) (blocks : List Block) : Prop where
  distinct : DistinctIds blocks
  subset : blocks.flatMap Block.allIds ⊆ known

section

variable {known minted : List String} {old new blocks added : List Block}

theorem Tidy.mono {more : List String} (h : Tidy known blocks) (hsub : known ⊆ more) :
    Tidy more blocks :=
  ⟨h.distinct, List.Subset.trans h.subset hsub⟩

theorem Tidy.ids_subset (h : Tidy known blocks) : blocks.flatMap Block.ids ⊆ known := by
  intro id hid
  obtain ⟨b, hb, hid⟩ := List.mem_flatMap.mp hid
  exact h.subset (List.mem_flatMap.mpr ⟨b, hb, List.mem_append_left _ hid⟩)

theorem Tidy.columnIds_subset (h : Tidy known blocks) {b : Block} (hb : b ∈ blocks) :
    b.columnIds ⊆ known := fun _ hid =>
  h.subset (List.mem_flatMap.mpr ⟨b, hb, List.mem_append_right _ hid⟩)

/-- Each list of identifiers in a tree is made of known ones. -/
theorem Tidy.of_subset (hdistinct : DistinctIds blocks)
    (hids : blocks.flatMap Block.ids ⊆ known) (hcolumns : ∀ b ∈ blocks, b.columnIds ⊆ known) :
    Tidy known blocks := by
  refine ⟨hdistinct, fun id hid => ?_⟩
  obtain ⟨b, hb, hid⟩ := List.mem_flatMap.mp hid
  cases List.mem_append.mp hid with
  | inl hid => exact hids (List.mem_flatMap.mpr ⟨b, hb, hid⟩)
  | inr hid => exact hcolumns b hb hid

/-- What is made of a tidy tree and of new identifiers is tidy. -/
theorem Tidy.regrown (h : Tidy known old) (hnew : AllNew known minted)
    (hr : Regrown minted old new) : Tidy (minted ++ known) new := by
  have hcolumns : ∀ b ∈ new, b.columnIds.Nodup ∧ b.columnIds ⊆ minted ++ known := by
    intro b hb
    obtain ⟨kept, hkept, hsub⟩ := hr.columnIds b hb
    cases List.mem_cons.mp hkept with
    | inl hnil =>
      rw [hnil] at hsub
      exact hnew.of_subperm hsub (List.nil_subset _) List.nodup_nil
    | inr hkept =>
      obtain ⟨o, ho, rfl⟩ := List.mem_map.mp hkept
      exact hnew.of_subperm hsub (h.columnIds_subset ho) (h.distinct.columnIds o ho)
  obtain ⟨hnodup, hids⟩ := hnew.of_subperm hr.ids h.ids_subset h.distinct.ids
  exact .of_subset ⟨hnodup, fun b hb => (hcolumns b hb).1⟩ hids fun b hb => (hcolumns b hb).2

end

/-! ## Pasting -/

/-- The blocks can stand after others that have the identifiers `taken`. -/
structure Fits (taken : List String) (blocks : List Block) : Prop where
  ids : (taken ++ blocks.flatMap Block.ids).Nodup
  columnIds : ∀ b ∈ blocks, b.columnIds.Nodup

section

variable {known taken minted : List String} {blocks added : List Block} {b : Block}

theorem Fits.nil (h : taken.Nodup) : Fits taken [] := by
  refine ⟨?_, fun b hb => absurd hb List.not_mem_nil⟩
  rwa [List.flatMap_nil, List.append_nil]

theorem Fits.cons (hb : b.columnIds.Nodup) (h : Fits (taken ++ b.ids) blocks) :
    Fits taken (b :: blocks) := by
  refine ⟨?_, List.forall_mem_cons.mpr ⟨hb, h.columnIds⟩⟩
  rw [List.flatMap_cons, ← List.append_assoc]
  exact h.ids

theorem Fits.append (hadded : Fits (blocks.flatMap Block.ids) added) (h : DistinctIds blocks) :
    DistinctIds (blocks ++ added) := by
  refine ⟨?_, List.forall_mem_append.mpr ⟨h.columnIds, hadded.columnIds⟩⟩
  rw [List.flatMap_append]
  exact hadded.ids

/-- A copy of the block if it has an identifier of `taken`, and else itself. -/
def copyIfTaken (taken : List String) (b : Block) : Minting Block :=
  if b.ids.any taken.contains then b.duplicate else pure b

theorem freshened_cons (taken : List String) (b : Block) (rest : List Block) :
    Editor.freshened taken (b :: rest) = (do
      let b ← copyIfTaken taken b
      return b :: (← Editor.freshened (taken ++ b.ids) rest)) := by
  rw [Editor.freshened, copyIfTaken]
  split <;> rfl

theorem yields_copyIfTaken (taken : List String) (hb : DistinctIds [b]) :
    Yields (copyIfTaken taken b) fun minted b' =>
      ∀ known, taken ⊆ known → b.allIds ⊆ known → AllNew known minted → taken.Nodup →
        (taken ++ b'.ids).Nodup ∧ b'.columnIds.Nodup ∧ b'.allIds ⊆ minted ++ known := by
  rw [copyIfTaken]
  split
  · refine b.yields_duplicate.imp fun minted copy hcopy known htaken _ hnew hnodup => ?_
    have hall := hnew.perm hcopy
    obtain ⟨hids, hcolumns, -⟩ := List.nodup_append'.mp hall.nodup
    refine ⟨List.nodup_append'.mpr ⟨hnodup, hids, fun id hid hid' => ?_⟩, hcolumns, ?_⟩
    · exact hall.unknown (List.mem_append_left _ hid') (htaken hid)
    · exact List.Subset.trans hcopy.symm.subset (List.subset_append_left _ _)
  · rename_i hany
    refine yields_pure fun known _ hknown _ hnodup => ⟨?_, hb.columnIds b (by simp), hknown⟩
    have hids := hb.ids
    rw [List.flatMap_singleton] at hids
    refine List.nodup_append'.mpr ⟨hnodup, hids, fun id hid hid' => hany ?_⟩
    exact List.any_eq_true.mpr ⟨id, hid', List.contains_iff_mem.mpr hid⟩

/-- Blocks of any origin are made to fit, if each has distinct identifiers. -/
theorem yields_freshened (hadded : ∀ b ∈ added, DistinctIds [b]) (taken : List String) :
    Yields (Editor.freshened taken added) fun minted blocks =>
      ∀ known, taken ⊆ known → added.flatMap Block.allIds ⊆ known → AllNew known minted →
        taken.Nodup → Fits taken blocks ∧ blocks.flatMap Block.allIds ⊆ minted ++ known := by
  induction added generalizing taken with
  | nil => exact yields_pure fun known _ _ _ hnodup => ⟨.nil hnodup, List.nil_subset _⟩
  | cons b added ih =>
    obtain ⟨hb, hadded⟩ := List.forall_mem_cons.mp hadded
    rw [freshened_cons]
    refine (yields_copyIfTaken taken hb).bind fun minted b' hb' =>
      (ih hadded (taken ++ b'.ids)).bind_pure fun minted' blocks hblocks => ?_
    intro known htaken hknown hnew hnodup
    rw [List.flatMap_cons, List.append_subset] at hknown
    obtain ⟨hids, hcolumns, hall⟩ := hb' known htaken hknown.1 hnew.left hnodup
    -- What is known grows by the identifiers that the block got.
    have hgrown : taken ++ b'.ids ⊆ minted ++ known :=
      List.append_subset.mpr ⟨List.subset_append_of_subset_right _ htaken,
        List.Subset.trans (List.subset_append_left _ _) hall⟩
    obtain ⟨hfits, hrest⟩ := hblocks (minted ++ known) hgrown
      (List.subset_append_of_subset_right _ hknown.2) hnew.right hids
    refine ⟨.cons hcolumns hfits, ?_⟩
    rw [List.flatMap_cons, List.append_assoc]
    refine List.append_subset.mpr ⟨List.Subset.trans hall ?_, List.Subset.trans hrest ?_⟩
    · have hmore : known ⊆ minted' ++ known := List.subset_append_right _ _
      exact List.append_subset.mpr ⟨List.subset_append_left _ _,
        List.subset_append_of_subset_right _ hmore⟩
    · exact (List.perm_append_comm_assoc minted' minted known).subset

/-- **Pasting leaves a tidy tree**, whatever the pasted blocks collide with. -/
theorem Editor.paste_tidy {e : Editor} (hadded : ∀ b ∈ added, DistinctIds [b])
    (replacing : Bool) :
    Yields (e.paste added replacing) fun minted e' =>
      ∀ known, Tidy known e.blocks → added.flatMap Block.allIds ⊆ known → AllNew known minted →
        Tidy (minted ++ known) e'.blocks := by
  rw [Editor.paste]
  refine (yields_freshened hadded _).bind_pure fun minted blocks hblocks known h hknown hnew => ?_
  have hkept : Tidy known (if replacing then [] else e.blocks) := by
    cases replacing with
    | true => exact ⟨⟨List.nodup_nil, fun b hb => absurd hb List.not_mem_nil⟩, List.nil_subset _⟩
    | false => exact h
  obtain ⟨hfits, hall⟩ := hblocks known hkept.ids_subset hknown hnew hkept.distinct.ids
  refine ⟨hfits.append hkept.distinct, ?_⟩
  rw [Editor.record, List.flatMap_append]
  exact List.append_subset.mpr ⟨List.subset_append_of_subset_right _ hkept.subset, hall⟩

end

/-! ## Operations -/

namespace Operation

/-- The identifiers that an operation brings from outside. -/
def outsideIds (op : Operation) : List String := op.pasted.flatMap Block.allIds

/-- **An operation that does not travel leaves a tidy tree.** -/
theorem run_tidy {op : Operation} {e : Editor} (htravels : op.travels = false)
    (hop : op.Admitted e) :
    Yields (op.run e) fun minted r =>
      ∀ known, Tidy known e.blocks → op.outsideIds ⊆ known → AllNew known minted →
        Tidy (minted ++ known) r.2.blocks := by
  by_cases hpaste : ∃ added replacing, op = paste added replacing
  · obtain ⟨added, replacing, rfl⟩ := hpaste
    exact (e.paste_tidy hop replacing).bind_pure fun _ _ h => h
  · have hother : ∀ added replacing, op ≠ paste added replacing :=
      fun added replacing heq => hpaste ⟨added, replacing, heq⟩
    exact (run_regrown htravels hother hop).imp fun minted r hr known h _ hnew => h.regrown hnew hr

end Operation

/-! ## Runs -/

namespace Session

variable {x : Session} {known : List String} {op : Operation} {ops : List Operation}

/-- The tree of the session and all its snapshots are tidy, and the supply is fresh for them. -/
structure Sound (x : Session) (known : List String) : Prop where
  supply : x.supply.Fresh known
  live : Tidy known x.editor.blocks
  snapshots : ∀ blocks ∈ x.editor.history.snapshots, Tidy known blocks

theorem Sound.start {blocks : List Block} {supply : Supply} (settings : Settings)
    (h : DistinctIds blocks) (hfresh : supply.Fresh (blocks.flatMap Block.allIds)) :
    (start blocks settings supply).Sound (blocks.flatMap Block.allIds) := by
  have htidy : Tidy (blocks.flatMap Block.allIds) blocks := ⟨h, fun _ hid => hid⟩
  refine ⟨hfresh, htidy, fun snapshot hmem => ?_⟩
  rw [List.mem_singleton.mp hmem]
  exact htidy

/-- More may be known, if it is not what the supply gives. -/
theorem Sound.append {more : List String} (h : x.Sound known) (hmore : x.supply.Fresh more) :
    x.Sound (known ++ more) :=
  ⟨h.supply.append hmore, h.live.mono (List.subset_append_left _ _), fun blocks hmem =>
    (h.snapshots blocks hmem).mono (List.subset_append_left _ _)⟩

theorem Sound.everywhere (h : x.Sound known) : x.Everywhere (Tidy known) := ⟨h.live, h.snapshots⟩

/-- Each admitted operation leads from a sound session to a sound session. -/
theorem Sound.next (h : x.Sound known) (hop : op.Admitted x.editor)
    (hknown : op.outsideIds ⊆ known) : ∃ minted, (x.next op).Sound (minted ++ known) := by
  cases htravels : op.travels with
  | false =>
    obtain ⟨minted, hm, htidy⟩ := op.run_tidy htravels hop x.supply
    obtain ⟨hnew, hfresh⟩ := h.supply.mints hm
    have hkept : x.Everywhere (Tidy (minted ++ known)) :=
      h.everywhere.imp fun blocks hblocks => hblocks.mono (List.subset_append_right _ _)
    obtain ⟨hlive, hsnapshots⟩ := hkept.next fun _ => htidy known h.live hknown hnew
    exact ⟨minted, hfresh, hlive, hsnapshots⟩
  | true =>
    have hsupply : (x.next op).supply = x.supply := by
      cases op with
      | undo => rfl
      | redo => rfl
      | _ => cases htravels
    have hnext : (x.next op).Everywhere (Tidy known) :=
      h.everywhere.next fun hfalse => absurd htravels (by simp [hfalse])
    exact ⟨[], hsupply ▸ h.supply, hnext.live, hnext.snapshots⟩

/-- Each operation of the run is admitted where it is done, and what is minted from it on is none
    of the identifiers that it brings. -/
def AdmitsAll (x : Session) : List Operation → Prop
  | [] => True
  | op :: ops => op.Admitted x.editor ∧ x.supply.Fresh op.outsideIds ∧ (x.next op).AdmitsAll ops

theorem Sound.after (h : x.Sound known) {done : List Operation} (hops : x.AdmitsAll ops)
    (hdone : done <+: ops) : ∃ known', (x.after done).Sound known' := by
  induction ops generalizing x known done with
  | nil =>
    rw [List.prefix_nil.mp hdone]
    exact ⟨known, h⟩
  | cons op ops ih =>
    cases done with
    | nil => exact ⟨known, h⟩
    | cons o done =>
      obtain ⟨rfl, hrest⟩ := List.cons_prefix_cons.mp hdone
      obtain ⟨hop, hfresh, hops⟩ := hops
      obtain ⟨minted, hnext⟩ := (h.append hfresh).next hop (List.subset_append_right _ _)
      exact ih hnext hops hrest

/-- **Identifiers are distinct throughout**: after each operation of an admitted run, in the tree
    and in every snapshot. -/
theorem ids_distinct_throughout {blocks : List Block} {supply : Supply} (settings : Settings)
    (hblocks : DistinctIds blocks) (hfresh : supply.Fresh (blocks.flatMap Block.allIds))
    (hops : (start blocks settings supply).AdmitsAll ops) {done : List Operation}
    (hdone : done <+: ops) :
    DistinctIds ((start blocks settings supply).after done).editor.blocks ∧
      ∀ snapshot ∈ ((start blocks settings supply).after done).editor.history.snapshots,
        DistinctIds snapshot := by
  obtain ⟨known, h⟩ := (Sound.start settings hblocks hfresh).after hops hdone
  exact ⟨h.live.distinct, fun snapshot hmem => (h.snapshots snapshot hmem).distinct⟩

end Session

/-- The identifiers `ii`, `iii`, `iiii` and so on. -/
def Supply.tally : Supply := ⟨fun n => String.ofList (List.replicate (n + 2) 'i'), 0⟩

theorem Supply.tally_fresh (used : Nat) {taken : List String}
    (h : ∀ id ∈ taken, id.length ≤ used + 1) : Fresh ⟨tally.ids, used⟩ taken := by
  have hlength : ∀ n, (tally.ids n).length = n + 2 := by
    intro n
    simp only [tally, String.length_ofList, List.length_replicate]
  constructor
  case distinct =>
    intro i j _ hij heq
    have hsame := congrArg String.length heq
    rw [hlength, hlength] at hsame
    omega
  case new =>
    intro i hi hmem
    have hshort := h _ hmem
    have hused : used ≤ i := hi
    rw [hlength] at hshort
    omega

/-- A pasted block with an identifier that was minted before, and a row that holds one of the
    document: both are copied. -/
theorem Session.ids_distinct_throughout_of_collisions :
    let blocks : List Block := [.content ⟨"a", .text, []⟩]
    let column : Column := ⟨"c", "", [⟨"a", .text, []⟩], none⟩
    let row : Block := .row "r" ⟨.oneColumn, [column], RowLayout.initialGap, true, .initial⟩
    let ops : List Operation :=
      [.addBlock .divider none, .undo, .redo, .paste [.content ⟨"ii", .text, []⟩, row] false]
    DistinctIds blocks ∧ Supply.tally.Fresh (blocks.flatMap Block.allIds) ∧
      (start blocks .initial .tally).AdmitsAll ops ∧
      (DistinctIds ((start blocks .initial .tally).after ops).editor.blocks ∧
        ∀ snapshot ∈ ((start blocks .initial .tally).after ops).editor.history.snapshots,
          DistinctIds snapshot) ∧
      ((start blocks .initial .tally).after ops).editor.blocks.flatMap Block.allIds =
        ["a", "ii", "iii", "iiiiii", "iiiii", "iiii"] := by
  intro blocks column row ops
  have hblocks : DistinctIds blocks := by decide
  have hfresh : Supply.tally.Fresh (blocks.flatMap Block.allIds) :=
    Supply.tally_fresh 0 (by decide)
  have hpasted : ∀ b ∈ [.content ⟨"ii", .text, []⟩, row], DistinctIds [b] := by decide
  have hops : (start blocks .initial .tally).AdmitsAll ops := by
    refine ⟨trivial, ?_, trivial, ?_, trivial, ?_, hpasted, ?_, trivial⟩
    · exact Supply.tally_fresh 0 (by decide)
    · exact Supply.tally_fresh 1 (by decide)
    · exact Supply.tally_fresh 1 (by decide)
    · exact Supply.tally_fresh 1 (by decide)
  have hdistinct := ids_distinct_throughout .initial hblocks hfresh hops (List.prefix_refl ops)
  exact ⟨hblocks, hfresh, hops, hdistinct, by decide +kernel⟩

end Letterpress
