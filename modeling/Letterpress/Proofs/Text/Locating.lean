/-
  Items at their places in a text.

  * `ReadsWhole text read?`: a reader takes what `text` writes for the item, and never nothing.
  * `Replaced text f offset s ls o`: the items `ls` stand in `s` at their offsets, one after the
    other, and `o` is `s` with `f` in place of each of them and nothing else changed.
  * `replaced_located`: **the items that are located are replaced, and only they.**
    `Replaced.ordered` says that they do not overlap.
  * `exists_read_of_mem_located` and `read?_eq_none_of_outside`: an item is read where it is
    located, and nothing is read at a place outside of all items.
  * `pieces_eq_map`: **readers that take the same find the same**, and `substitute_map`,
    `located_map` and `items_map` say what follows for what is made of the pieces.
-/
import Letterpress.Proofs.Text.Cutting

namespace Letterpress.Text

variable {α : Type}

/-! ## Places -/

theorem utf8Length_append (s t : List Char) : utf8Length (s ++ t) = utf8Length s + utf8Length t := by
  induction s with
  | nil => rw [List.nil_append, utf8Length, Nat.zero_add]
  | cons c s ih => rw [List.cons_append, utf8Length, utf8Length, ih, Nat.add_assoc]

/-- The offset behind the item. -/
def Located.stop (text : α → List Char) (l : Located α) : Nat := l.start + utf8Length (text l.item)

/-- The item stands over an offset. -/
def Located.Covers (text : α → List Char) (l : Located α) (offset : Nat) : Prop :=
  l.start ≤ offset ∧ offset < l.stop text

/-! ## Readers -/

/-- What is read as an item is the text of the item, and not empty. -/
structure ReadsWhole (text : α → List Char) (read? : Reader α) : Prop where
  nonempty : ∀ {s a rest}, read? s = some (a, rest) → text a ≠ []
  whole : ∀ {s a rest}, read? s = some (a, rest) → s = text a ++ rest

section

variable {text : α → List Char} {read? : Reader α} (h : ReadsWhole text read?)
include h

/-- A text is empty, or starts with a character at which nothing is read, or with an item. -/
theorem ReadsWhole.induction {motive : List Char → Prop} (nil : motive [])
    (char : ∀ c s, read? (c :: s) = none → motive s → motive (c :: s))
    (item : ∀ a rest, read? (text a ++ rest) = some (a, rest) → motive rest →
      motive (text a ++ rest))
    (s : List Char) : motive s := by
  induction hn : s.length using Nat.strong_induction_on generalizing s with
  | _ n ih =>
    cases s with
    | nil => exact nil
    | cons c s =>
      cases hread : read? (c :: s) with
      | none => exact char c s hread (ih s.length (by simp [← hn]) s rfl)
      | some read =>
        obtain ⟨a, rest⟩ := read
        have hwhole := h.whole hread
        have hshort : rest.length < n := by
          have hlength := congrArg List.length hwhole
          have hpositive := List.length_pos_iff.2 (h.nonempty hread)
          rw [List.length_append] at hlength
          omega
        rw [hwhole] at hread ⊢
        exact item a rest hread (ih rest.length hshort rest rfl)

theorem located_item {a : α} {rest : List Char} (hread : read? (text a ++ rest) = some (a, rest))
    (offset : Nat) :
    located text offset (pieces read? (text a ++ rest)) =
      ⟨a, offset⟩ :: located text (offset + utf8Length (text a)) (pieces read? rest) := by
  rw [pieces_append_of_read (h.nonempty hread) hread, located]

end

theorem located_char (text : α → List Char) {read? : Reader α} {c : Char} {s : List Char}
    (hread : read? (c :: s) = none) (offset : Nat) :
    located text offset (pieces read? (c :: s)) =
      located text (offset + c.utf8Size) (pieces read? s) := by
  rw [pieces_cons_of_none hread, located]

/-! ## Replacing -/

/-- The items stand in the first text in this order, where the text starts at the offset, and the
    second text has `f` in place of each of them and is otherwise the same. -/
inductive Replaced (text f : α → List Char) :
    Nat → List Char → List (Located α) → List Char → Prop where
  /-- Behind the last item nothing changes. -/
  | last (offset : Nat) (s : List Char) : Replaced text f offset s [] s
  /-- Nothing changes up to the next item. -/
  | next {offset : Nat} {s o : List Char} {ls : List (Located α)} (before : List Char) (a : α) :
    Replaced text f (offset + utf8Length before + utf8Length (text a)) s ls o →
      Replaced text f offset (before ++ (text a ++ s)) (⟨a, offset + utf8Length before⟩ :: ls)
        (before ++ (f a ++ o))

namespace Replaced

variable {text f : α → List Char} {offset : Nat} {s o : List Char} {ls : List (Located α)}

/-- A character before the text stays. -/
theorem cons {c : Char} (h : Replaced text f (offset + c.utf8Size) s ls o) :
    Replaced text f offset (c :: s) ls (c :: o) := by
  cases h with
  | last => exact .last offset _
  | next before a h =>
    have hstart : offset + c.utf8Size + utf8Length before = offset + utf8Length (c :: before) := by
      rw [utf8Length, Nat.add_assoc]
    rw [hstart] at h ⊢
    exact .next (c :: before) a h

theorem le_start (h : Replaced text f offset s ls o) : ∀ l ∈ ls, offset ≤ l.start := by
  induction h with
  | last => exact fun l hl => absurd hl List.not_mem_nil
  | next before a _ ih =>
    refine List.forall_mem_cons.2 ⟨Nat.le_add_right _ _, fun l hl => ?_⟩
    exact (Nat.le_add_right _ _).trans ((Nat.le_add_right _ _).trans (ih l hl))

/-- The items ascend and do not overlap. -/
theorem ordered (h : Replaced text f offset s ls o) :
    ls.Pairwise fun l l' => l.stop text ≤ l'.start := by
  induction h with
  | last => exact .nil
  | next before a h ih => exact .cons (fun l hl => h.le_start l hl) ih

/-- Without items nothing changes. -/
theorem eq_of_nil (h : Replaced text f offset s [] o) : o = s := by
  cases h
  rfl

end Replaced

section

variable {text : α → List Char} {read? : Reader α} (h : ReadsWhole text read?)
include h

/-- **The items that are located are replaced, and only they.** -/
theorem replaced_located (f : α → List Char) (offset : Nat) (s : List Char) :
    Replaced text f offset s (located text offset (pieces read? s))
      (substitute f (pieces read? s)) := by
  induction s using h.induction generalizing offset with
  | nil =>
    rw [pieces_nil]
    exact .last offset []
  | char c s hread ih =>
    rw [located_char text hread, pieces_cons_of_none hread]
    exact (ih _).cons
  | item a rest hread ih =>
    rw [located_item h hread, pieces_append_of_read (h.nonempty hread) hread, substitute_item]
    exact .next [] a (ih _)

/-- An item is read where it is located. -/
theorem exists_read_of_mem_located {offset : Nat} {s : List Char} {l : Located α}
    (hl : l ∈ located text offset (pieces read? s)) :
    ∃ before after, s = before ++ (text l.item ++ after) ∧ l.start = offset + utf8Length before ∧
      read? (text l.item ++ after) = some (l.item, after) := by
  induction s using h.induction generalizing offset with
  | nil =>
    rw [pieces_nil] at hl
    cases hl
  | char c s hread ih =>
    rw [located_char text hread] at hl
    obtain ⟨before, after, rfl, hstart, hitem⟩ := ih hl
    refine ⟨c :: before, after, rfl, ?_, hitem⟩
    rw [hstart, utf8Length, Nat.add_assoc]
  | item a rest hread ih =>
    rw [located_item h hread] at hl
    rcases List.mem_cons.1 hl with rfl | hl
    · exact ⟨[], rest, rfl, rfl, hread⟩
    · obtain ⟨before, after, rfl, hstart, hitem⟩ := ih hl
      refine ⟨text a ++ before, after, (List.append_assoc ..).symm, ?_, hitem⟩
      rw [hstart, utf8Length_append, Nat.add_assoc]

/-- An item stands between its two offsets. -/
theorem stands_of_mem_located {s : List Char} {l : Located α}
    (hl : l ∈ located text 0 (pieces read? s)) :
    ∃ before after, s = before ++ (text l.item ++ after) ∧ l.start = utf8Length before ∧
      l.stop text = utf8Length (before ++ text l.item) := by
  obtain ⟨before, after, hs, hstart, -⟩ := exists_read_of_mem_located h hl
  rw [Nat.zero_add] at hstart
  exact ⟨before, after, hs, hstart, by rw [Located.stop, hstart, utf8Length_append]⟩

/-- **Nothing is read at a place outside of all items.** -/
theorem read?_eq_none_of_outside {offset : Nat} {s before after : List Char}
    (hs : s = before ++ after) (hafter : after ≠ [])
    (hout : ∀ l ∈ located text offset (pieces read? s),
      ¬ l.Covers text (offset + utf8Length before)) : read? after = none := by
  induction s using h.induction generalizing offset before with
  | nil => exact absurd (List.append_eq_nil_iff.1 hs.symm).2 hafter
  | char c s hread ih =>
    cases before with
    | nil =>
      rw [List.nil_append] at hs
      rwa [← hs]
    | cons d before =>
      obtain ⟨rfl, rfl⟩ := List.cons.inj hs
      rw [located_char text hread, utf8Length, ← Nat.add_assoc] at hout
      exact ih rfl hout
  | item a rest hread ih =>
    rw [located_item h hread] at hout
    obtain ⟨hfirst, hrest⟩ := List.forall_mem_cons.1 hout
    rcases List.append_eq_append_iff.1 hs with ⟨behind, rfl, hbehind⟩ | ⟨inside, htext, rfl⟩
    · rw [utf8Length_append, ← Nat.add_assoc] at hrest
      exact ih hbehind hrest
    · cases inside with
      | nil =>
        rw [List.append_nil] at htext
        have hrest' : rest = [] ++ rest := rfl
        rw [← htext] at hrest
        exact ih hrest' hrest
      | cons c inside =>
        -- the place lies before the end of the item
        refine absurd ⟨Nat.le_add_right _ _, ?_⟩ hfirst
        have hwidth := Char.utf8Size_pos c
        simp only [Located.stop, htext, utf8Length_append, utf8Length]
        omega

end

/-! ## Readers that take the same -/

section

variable {β : Type}

/-- The piece with another item in the place of its own. -/
def Piece.map (g : α → β) : Piece α → Piece β
  | .char c => .char c
  | .item a => .item (g a)

theorem items_map (g : α → β) (ps : List (Piece α)) :
    items (ps.map (Piece.map g)) = (items ps).map g := by
  induction ps with
  | nil => rfl
  | cons p ps ih =>
    cases p with
    | char c => exact ih
    | item a => exact congrArg (g a :: ·) ih

theorem substitute_map (f : β → List Char) (g : α → β) (ps : List (Piece α)) :
    substitute f (ps.map (Piece.map g)) = substitute (fun a => f (g a)) ps := by
  induction ps with
  | nil => rfl
  | cons p ps ih =>
    cases p with
    | char c => exact congrArg (c :: ·) ih
    | item a => exact congrArg (f (g a) ++ ·) ih

theorem substitute_congr {f f' : α → List Char} {ps : List (Piece α)}
    (h : ∀ a ∈ items ps, f a = f' a) : substitute f ps = substitute f' ps := by
  induction ps with
  | nil => rfl
  | cons p ps ih =>
    cases p with
    | char c => exact congrArg (c :: ·) (ih h)
    | item a =>
      obtain ⟨ha, hps⟩ := List.forall_mem_cons.1 h
      rw [substitute_item, substitute_item, ha, ih hps]

/-- Items of the same texts stand at the same offsets. -/
theorem located_map {text : α → List Char} {text' : β → List Char} {g : α → β}
    {ps : List (Piece α)} (h : ∀ a ∈ items ps, text' (g a) = text a) (offset : Nat) :
    located text' offset (ps.map (Piece.map g)) =
      (located text offset ps).map fun l => ⟨g l.item, l.start⟩ := by
  induction ps generalizing offset with
  | nil => rfl
  | cons p ps ih =>
    cases p with
    | char c => exact ih h _
    | item a =>
      obtain ⟨ha, hps⟩ := List.forall_mem_cons.1 h
      rw [List.map_cons, Piece.map, located, located, ha, ih hps, List.map_cons]

variable {text : α → List Char} {read? : Reader α} (h : ReadsWhole text read?)
include h

/-- **Two readers find the same**, if the second one takes every item that the first one finds in
    the text, and nothing where the first one takes nothing. -/
theorem pieces_eq_map {read?' : Reader β} {g : α → β} {s : List Char}
    (hnone : ∀ t, read? t = none → read?' t = none)
    (hsome : ∀ a ∈ items (pieces read? s), ∀ rest, read? (text a ++ rest) = some (a, rest) →
      read?' (text a ++ rest) = some (g a, rest)) :
    pieces read?' s = (pieces read? s).map (Piece.map g) := by
  induction s using h.induction with
  | nil => rw [pieces_nil, pieces_nil, List.map_nil]
  | char c s hread ih =>
    rw [pieces_cons_of_none hread] at hsome ⊢
    rw [pieces_cons_of_none (hnone _ hread), ih hsome, List.map_cons, Piece.map]
  | item a rest hread ih =>
    have hne := h.nonempty hread
    rw [pieces_append_of_read hne hread] at hsome ⊢
    obtain ⟨ha, hrest⟩ := List.forall_mem_cons.1 hsome
    rw [pieces_append_of_read hne (ha rest hread), ih hrest, List.map_cons, Piece.map]

/-- A text with its items in the place of themselves is the same. -/
theorem substitute_text (s : List Char) : substitute text (pieces read? s) = s := by
  induction s using h.induction with
  | nil => rw [pieces_nil]; rfl
  | char c s hread ih =>
    rw [pieces_cons_of_none hread]
    exact congrArg (c :: ·) ih
  | item a rest hread ih => rw [pieces_append_of_read (h.nonempty hread) hread, substitute_item, ih]

end

end Letterpress.Text
