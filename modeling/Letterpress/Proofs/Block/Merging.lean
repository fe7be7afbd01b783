/-
  Props set over those of a row.

  * `Dict.get?_extend_of_none`: keys that are not set keep their values.
  * `RowLayout.ids_of_merge`: when the columns of a row are not set, they and the blocks in them
    keep their identifiers, although all of the row is written and read again.
-/
import Letterpress.Proofs.Block.Reading

namespace Letterpress

/-! ## Maps -/

theorem Dict.get?_extend_of_none {α : Type} {key : String} {update : Dict α}
    (h : Dict.get? update key = none) (ms : Dict α) :
    Dict.get? (Dict.extend ms update) key = Dict.get? ms key := by
  induction update generalizing ms with
  | nil => rfl
  | cons m update ih =>
    obtain ⟨k, v⟩ := m
    rw [Dict.get?] at h
    by_cases hk : k = key
    · rw [if_pos hk] at h
      cases h
    · rw [if_neg hk] at h
      have hstep : Dict.extend ms ((k, v) :: update) =
        Dict.extend (Dict.insert k v ms) update := rfl
      rw [hstep, ih h, Dict.get?_insert, if_neg (Ne.symm hk)]

/-! ## Reading what was written -/

theorem ContentBlock.id_of_ofJson {b b' : ContentBlock}
    (h : ContentBlock.ofJson b.toJson = .ok b') : b'.id = b.id := by
  rw [ContentBlock.ofJson_toJson, ContentBlock.ofRaw] at h
  split at h
  · cases h
  · cases h
    rfl

theorem Column.ids_of_ofJson {c c' : Column} (h : Column.ofJson c.toJson = .ok c') :
    c'.id = c.id ∧ c'.blocks.map (·.id) = c.blocks.map (·.id) := by
  rw [Column.ofJson_toJson] at h
  obtain ⟨blocks, hread, h⟩ := except_bind_eq_ok h
  obtain ⟨style, -, h⟩ := orFault_bind_eq_ok h
  cases h
  exact ⟨rfl, map_of_mapM_eq_ok (fun b b' => ContentBlock.id_of_ofJson) hread⟩

/-- **A row keeps its identifiers** when props are set over it that are not its columns. -/
theorem RowLayout.ids_of_merge {l l' : RowLayout} {updates : Members}
    (hupdates : Dict.get? updates "columns" = none)
    (h : RowLayout.ofMembers? (l.toMembers.extend updates) = some l') :
    l'.columns.map (fun c => (c.id, c.blocks.map (·.id))) =
      l.columns.map fun c => (c.id, c.blocks.map (·.id)) := by
  have hcolumns : Dict.get? (l.toMembers.extend updates) "columns" =
      some (.array (l.columns.map Column.toJson)) := by
    rw [Dict.get?_extend_of_none hupdates, RowLayout.get?_toMembers_columns]
  have hread : RowLayout.ofJson (.object (l.toMembers.extend updates)) = .ok l' := by
    rw [RowLayout.ofMembers?] at h
    cases hok : RowLayout.ofJson (.object (l.toMembers.extend updates)) with
    | error fault =>
      rw [hok] at h
      cases h
    | ok l'' =>
      rw [hok] at h
      cases h
      rfl
  have hordered : (l.toMembers.extend updates).Ordered :=
    Dict.ordered_extend (Dict.ordered_ofPairs _) updates
  rw [RowLayout.ofJson_object hordered, hcolumns] at hread
  obtain ⟨columns, hlist, hread⟩ := except_bind_eq_ok hread
  obtain ⟨preset, -, hread⟩ := orFault_bind_eq_ok hread
  obtain ⟨gap, -, hread⟩ := orFault_bind_eq_ok hread
  obtain ⟨stack, -, hread⟩ := orFault_bind_eq_ok hread
  obtain ⟨style, -, hread⟩ := orFault_bind_eq_ok hread
  cases hread
  refine map_of_mapM_eq_ok (fun c c' hc => ?_) hlist
  obtain ⟨hid, hblocks⟩ := Column.ids_of_ofJson hc
  rw [hid, hblocks]

end Letterpress
