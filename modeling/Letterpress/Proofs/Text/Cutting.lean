/-
  Cutting texts whose parts are known.

  * `Unread read? s rest`: a reader finds nothing at any position of `s` when `rest` follows it.
  * `pieces_append_of_unread` and `pieces_append_of_read`: such a part is cut into its characters,
    and a part that is read as an item is cut into that item.
  * `breakOn_append_of_unread` and `breakOn_eq_none_of_unread`: where the first occurrence of a
    text is; `breakOn_eq_none_iff` and `not_infix_of_breakOn`: there is none before it.
  * `span_append`: where a run of characters ends; `trimStartOf_append`, `trimEndOf_append`: what
    is left when a run is taken off.
  * `splitOn_joined`: the parts of a text in which a separator stands before every part but the
    first; `splitOn_intercalate`: the same where it stands between the parts.
  * `exists_read_of_mem_items`: an item is read somewhere in the text.
-/
import Letterpress.Text.Blank
import Letterpress.Text.Pieces
import Mathlib.Data.List.DropRight
import Mathlib.Data.List.TakeDrop

namespace Letterpress.Text

variable {α β : Type}

/-! ## Positions at which nothing is read -/

/-- A reader finds nothing at any position of a text when another text follows it. -/
def Unread (read? : List Char → Option β) : List Char → List Char → Prop
  | [], _ => True
  | c :: s, rest => read? (c :: (s ++ rest)) = none ∧ Unread read? s rest

theorem unread_append {read? : List Char → Option β} {s t rest : List Char} :
    Unread read? (s ++ t) rest ↔ Unread read? s (t ++ rest) ∧ Unread read? t rest := by
  induction s with
  | nil => simp [Unread]
  | cons c s ih => simp only [List.cons_append, Unread, ih, List.append_assoc, and_assoc]

/-- Where nothing is read, every character stands for itself. -/
theorem pieces_append_of_unread {read? : Reader α} {s rest : List Char}
    (h : Unread read? s rest) : pieces read? (s ++ rest) = s.map .char ++ pieces read? rest := by
  induction s with
  | nil => rfl
  | cons c s ih =>
    obtain ⟨hc, hs⟩ := h
    rw [List.cons_append, pieces_cons_of_none hc, ih hs, List.map_cons, List.cons_append]

/-- What is read as an item is cut as that item. -/
theorem pieces_append_of_read {read? : Reader α} {s rest : List Char} {a : α} (hs : s ≠ [])
    (h : read? (s ++ rest) = some (a, rest)) :
    pieces read? (s ++ rest) = .item a :: pieces read? rest := by
  cases s with
  | nil => exact absurd rfl hs
  | cons c s => exact pieces_cons_of_some h

/-- There are no more pieces than characters. -/
theorem length_pieces_le (read? : Reader α) (s : List Char) :
    (pieces read? s).length ≤ s.length := by
  have hafter : ∀ skip, (piecesAfter read? skip s).length ≤ s.length := by
    induction s with
    | nil => exact fun _ => Nat.le_of_eq (by rw [piecesAfter]; rfl)
    | cons c s ih =>
      intro skip
      cases skip with
      | succ skip => exact (ih skip).trans (Nat.le_succ _)
      | zero =>
        rw [piecesAfter]
        split
        · exact Nat.succ_le_succ (ih _)
        · exact Nat.succ_le_succ (ih 0)
  exact hafter 0

/-! ## Putting the pieces together -/

theorem substitute_append (f : α → List Char) (ps qs : List (Piece α)) :
    substitute f (ps ++ qs) = substitute f ps ++ substitute f qs :=
  List.flatMap_append

theorem substitute_chars (f : α → List Char) (s : List Char) :
    substitute f (s.map .char) = s := by
  induction s with
  | nil => rfl
  | cons c s ih =>
    rw [List.map_cons, substitute, List.flatMap_cons]
    exact congrArg (c :: ·) ih

theorem substitute_item (f : α → List Char) (a : α) (ps : List (Piece α)) :
    substitute f (.item a :: ps) = f a ++ substitute f ps :=
  rfl

/-! ## Items -/

/-- An item is read at some position of the text. -/
theorem exists_read_of_mem_items {read? : Reader α} {s : List Char} {a : α}
    (h : a ∈ items (pieces read? s)) : ∃ t rest, t <:+ s ∧ read? t = some (a, rest) := by
  have hafter : ∀ skip, a ∈ items (piecesAfter read? skip s) →
      ∃ t rest, t <:+ s ∧ read? t = some (a, rest) := by
    clear h
    induction s with
    | nil =>
      intro skip ha
      rw [piecesAfter] at ha
      cases ha
    | cons c s ih =>
      intro skip ha
      cases skip with
      | succ skip =>
        obtain ⟨t, rest, ht, hread⟩ := ih skip ha
        exact ⟨t, rest, ht.trans (List.suffix_cons c s), hread⟩
      | zero =>
        rw [piecesAfter] at ha
        split at ha
        · rename_i b rest hread
          rcases List.mem_cons.1 ha with rfl | ha
          · exact ⟨c :: s, rest, List.suffix_rfl, hread⟩
          · obtain ⟨t, rest, ht, hread⟩ := ih _ ha
            exact ⟨t, rest, ht.trans (List.suffix_cons c s), hread⟩
        · obtain ⟨t, rest, ht, hread⟩ := ih 0 ha
          exact ⟨t, rest, ht.trans (List.suffix_cons c s), hread⟩
  exact hafter 0 h

theorem map_item_located (text : α → List Char) (offset : Nat) (ps : List (Piece α)) :
    (located text offset ps).map (·.item) = items ps := by
  induction ps generalizing offset with
  | nil => rfl
  | cons p ps ih =>
    cases p with
    | char c => exact ih _
    | item a => exact congrArg (a :: ·) (ih _)

theorem mem_distinct {texts : List String} {t : String} : t ∈ distinct texts ↔ t ∈ texts := by
  have hfold : ∀ seen : List String,
      t ∈ texts.foldl (fun seen t => if seen.contains t then seen else seen ++ [t]) seen ↔
        t ∈ seen ∨ t ∈ texts := by
    induction texts with
    | nil => simp
    | cons u texts ih =>
      intro seen
      rw [List.foldl_cons, ih, List.mem_cons, ← or_assoc]
      refine or_congr_left ?_
      split
      · rename_i hseen
        refine (or_iff_left_of_imp ?_).symm
        rintro rfl
        simpa using hseen
      · rw [List.mem_append, List.mem_singleton]
  rw [distinct, hfold []]
  simp

/-! ## First occurrences -/

theorem afterStart?_eq_none {pat s : List Char} (h : ¬ pat <+: s) : afterStart? pat s = none := by
  rw [Option.eq_none_iff_forall_not_mem]
  intro rest hrest
  exact h ⟨rest, (afterStart?_eq_some_iff.1 hrest).symm⟩

theorem afterStart?_eq_none_iff {pat s : List Char} : afterStart? pat s = none ↔ ¬ pat <+: s := by
  refine ⟨?_, afterStart?_eq_none⟩
  rintro h ⟨rest, hrest⟩
  rw [afterStart?_eq_some_iff.2 hrest.symm] at h
  cases h

theorem breakOn_append_of_unread {pat before after : List Char}
    (h : Unread (afterStart? pat) before (pat ++ after)) :
    breakOn pat (before ++ (pat ++ after)) = some (before, after) := by
  induction before with
  | nil =>
    have hp : afterStart? pat (pat ++ after) = some after := afterStart?_eq_some_iff.2 rfl
    rw [List.nil_append]
    cases hs : pat ++ after with
    | nil =>
      obtain ⟨rfl, rfl⟩ := List.append_eq_nil_iff.1 hs
      rfl
    | cons c s =>
      rw [hs] at hp
      simp only [breakOn, hp]
  | cons c s ih =>
    obtain ⟨hc, hs⟩ := h
    simp only [List.cons_append, breakOn, hc, ih hs, Option.map_some]

theorem breakOn_eq_none_of_unread {pat s : List Char} (hpat : pat ≠ [])
    (h : Unread (afterStart? pat) s []) : breakOn pat s = none := by
  induction s with
  | nil => simp [breakOn, hpat]
  | cons c s ih =>
    obtain ⟨hc, hs⟩ := h
    rw [List.append_nil] at hc
    simp only [breakOn, hc, ih hs, Option.map_none]

theorem breakOn_eq_none_iff {pat s : List Char} (hpat : pat ≠ []) :
    breakOn pat s = none ↔ ¬ pat <:+: s := by
  induction s with
  | nil => simp [breakOn, hpat]
  | cons c s ih =>
    rw [breakOn, List.infix_cons_iff, not_or, ← ih, ← afterStart?_eq_none_iff]
    split
    · rename_i hstart
      simp [hstart]
    · rename_i hstart
      simp [hstart]

/-- The text before the first occurrence has none. -/
theorem not_infix_of_breakOn {pat s before after : List Char} (hpat : pat ≠ [])
    (h : breakOn pat s = some (before, after)) : ¬ pat <:+: before := by
  induction s generalizing before with
  | nil => simp [breakOn, hpat] at h
  | cons c s ih =>
    rw [breakOn] at h
    split at h
    · cases h
      simpa using hpat
    · rename_i hstart
      obtain ⟨⟨rest, after⟩, hrest, ⟨⟩⟩ := Option.map_eq_some_iff.1 h
      rw [List.infix_cons_iff, not_or]
      refine ⟨fun hp => afterStart?_eq_none_iff.1 hstart ?_, ih hrest⟩
      rw [breakOn_eq_some hrest, List.append_assoc, ← List.cons_append]
      exact hp.trans (List.prefix_append _ _)

/-! ## Runs of characters -/

/-- A run ends where a character breaks the condition. -/
theorem span_append {p : Char → Bool} {s rest : List Char} (hs : ∀ c ∈ s, p c = true)
    (hrest : ∀ c ∈ rest.head?, p c = false) : (s ++ rest).span p = (s, rest) := by
  rw [List.span_eq_takeWhile_dropWhile, List.takeWhile_append_of_pos hs,
    List.dropWhile_append_of_pos hs]
  cases rest with
  | nil => simp
  | cons c rest =>
    have hc : p c = false := hrest c rfl
    simp [hc]

theorem head?_dropWhile {p : Char → Bool} {s : List Char} :
    ∀ c ∈ (s.dropWhile p).head?, p c = false := by
  intro c hc
  have h := List.head?_dropWhile_not p s
  rwa [Option.mem_def.1 hc] at h

/-! ## Trimming -/

/-- What is trimmed at the start ends where a character breaks the condition. -/
theorem trimStartOf_append {p : Char → Bool} {s rest : List Char} (hs : ∀ c ∈ s, p c = true)
    (hrest : ∀ c ∈ rest.head?, p c = false) : trimStartOf p (s ++ rest) = rest := by
  have hspan := span_append hs hrest
  rw [List.span_eq_takeWhile_dropWhile, Prod.mk.injEq] at hspan
  exact hspan.2

/-- What is trimmed at the end starts behind a character that breaks the condition. -/
theorem trimEndOf_append {p : Char → Bool} {s rest : List Char} (hs : ∀ c ∈ s, p c = true)
    (hrest : ∀ c ∈ rest.getLast?, p c = false) : trimEndOf p (rest ++ s) = rest := by
  have hreverse : trimStartOf p (s.reverse ++ rest.reverse) = rest.reverse := by
    refine trimStartOf_append (fun c hc => hs c (List.mem_reverse.1 hc)) ?_
    rwa [List.head?_reverse]
  rw [trimEndOf, List.reverse_append]
  exact (congrArg List.reverse hreverse).trans (List.reverse_reverse rest)

/-! ## White space -/

theorem trimStart_cons {c : Char} {s : List Char} (h : isBlank c = false) :
    trimStart (c :: s) = c :: s := by
  rw [trimStart, trimStartOf, List.dropWhile_cons_of_neg (by rw [h]; exact Bool.false_ne_true)]

theorem trimStart_subset (s : List Char) : trimStart s ⊆ s := (List.dropWhile_suffix _).subset

theorem trimEnd_prefix_self (s : List Char) : trimEnd s <+: s := by
  rw [← List.reverse_suffix, trimEnd, trimEndOf, List.reverse_reverse]
  exact List.dropWhile_suffix _

theorem trimEnd_append_cons {c : Char} {s t : List Char} (h : isBlank c = false) :
    trimEnd (s ++ c :: t) = s ++ c :: trimEnd t := by
  have hstop : List.dropWhile isBlank (c :: s.reverse) = c :: s.reverse :=
    List.dropWhile_cons_of_neg (by rw [h]; exact Bool.false_ne_true)
  rw [trimEnd, trimEnd, trimEndOf, trimEndOf, List.reverse_append, List.reverse_cons,
    List.append_assoc, List.singleton_append, List.dropWhile_append, hstop]
  split
  · rename_i hempty
    rw [List.isEmpty_iff.1 hempty]
    simp
  · simp

theorem getLast?_trimEnd_concat {c : Char} (h : isBlank c = false) (s : List Char) :
    (trimEnd (s ++ [c])).getLast? = some c := by
  have hnil : trimEnd [] = [] := rfl
  rw [trimEnd_append_cons h, hnil, List.getLast?_concat]

theorem trimEnd_trimEnd (s : List Char) : trimEnd (trimEnd s) = trimEnd s := by
  rw [trimEnd, trimEndOf, trimEnd, trimEndOf, List.reverse_reverse, List.dropWhile_idempotent]

theorem trimStart_trim (s : List Char) : trimStart (trim s) = trim s := by
  cases h : trim s with
  | nil => rfl
  | cons c rest =>
    -- the first character is that of the text without its leading blanks
    obtain ⟨tail, htail⟩ := trimEnd_prefix_self (trimStart s)
    rw [← trim, h, List.cons_append] at htail
    have hhead : c ∈ (trimStart s).head? := by
      rw [← htail]
      rfl
    exact trimStart_cons (head?_dropWhile c hhead)

theorem trim_trim (s : List Char) : trim (trim s) = trim s := by
  have h := trimStart_trim s
  rw [trim, h, trim, trimEnd_trimEnd]

theorem trim_of_notBlank {s : List Char} (h : ∀ c ∈ s, isBlank c = false) : trim s = s := by
  have hstart {t : List Char} (ht : ∀ c ∈ t, isBlank c = false) : t.dropWhile isBlank = t := by
    refine List.dropWhile_eq_self_iff.2 fun hpositive => ?_
    rw [ht _ (List.getElem_mem hpositive)]
    exact Bool.false_ne_true
  have hend : s.reverse.dropWhile isBlank = s.reverse :=
    hstart fun c hc => h c (List.mem_reverse.1 hc)
  rw [trim, trimStart, trimStartOf, hstart h, trimEnd, trimEndOf, hend, List.reverse_reverse]

/-- The printable characters of ASCII but the space are not blank. -/
theorem isBlank_eq_false_of_toNat {c : Char} (hlow : 33 ≤ c.toNat) (hhigh : c.toNat ≤ 126) :
    isBlank c = false := by
  simp only [isBlank, within, inRanges, blankRanges, List.any_cons, List.any_nil, Bool.or_false,
    Bool.or_eq_false_iff, Bool.and_eq_false_iff, decide_eq_false_iff_not]
  omega

/-! ## Separators -/

theorem splitOn_of_notMem {sep : Char} {s : List Char} (h : sep ∉ s) : splitOn sep s = [s] := by
  induction s with
  | nil => rfl
  | cons c s ih =>
    rw [List.mem_cons, not_or] at h
    rw [splitOn, if_neg (Ne.symm h.1), ih h.2]

/-- A separator divides the parts before it from those behind it. -/
theorem splitOn_append (sep : Char) (s rest : List Char) :
    splitOn sep (s ++ sep :: rest) = splitOn sep s ++ splitOn sep rest := by
  induction s with
  | nil => simp [splitOn]
  | cons c s ih =>
    rw [List.cons_append, splitOn, splitOn, ih]
    split
    · rfl
    · cases hs : splitOn sep s with
      | nil => exact absurd hs (splitOn_ne_nil sep s)
      | cons part parts => rfl

theorem splitOn_append_cons {sep : Char} {s rest : List Char} (h : sep ∉ s) :
    splitOn sep (s ++ sep :: rest) = s :: splitOn sep rest := by
  rw [splitOn_append, splitOn_of_notMem h, List.singleton_append]

/-- Separators between the parts cut a text into these parts. -/
theorem splitOn_intercalate {sep : Char} {parts : List (List Char)} (hne : parts ≠ [])
    (h : ∀ part ∈ parts, sep ∉ part) : splitOn sep ([sep].intercalate parts) = parts := by
  induction parts with
  | nil => exact absurd rfl hne
  | cons part parts ih =>
    obtain ⟨hpart, hparts⟩ := List.forall_mem_cons.1 h
    cases parts with
    | nil =>
      rw [List.intercalate_singleton]
      exact splitOn_of_notMem hpart
    | cons next parts =>
      rw [List.intercalate_cons_cons, List.append_assoc, List.singleton_append,
        splitOn_append_cons hpart, ih (List.cons_ne_nil next parts) hparts]

/-- A separator before every part but the first cuts a text into these parts. -/
theorem splitOn_joined {sep : Char} {first : List Char} {parts : List (List Char)}
    (hfirst : sep ∉ first) (hparts : ∀ s ∈ parts, sep ∉ s) :
    splitOn sep (first ++ parts.flatMap (sep :: ·)) = first :: parts := by
  induction parts generalizing first with
  | nil => rw [List.flatMap_nil, List.append_nil, splitOn_of_notMem hfirst]
  | cons s parts ih =>
    have hs : sep ∉ s := hparts s List.mem_cons_self
    have hrest : ∀ t ∈ parts, sep ∉ t := fun t ht => hparts t (List.mem_cons_of_mem _ ht)
    rw [List.flatMap_cons, List.cons_append, splitOn_append_cons hfirst, ih hs hrest]

theorem notMem_of_mem_splitOn {sep : Char} {s part : List Char} (h : part ∈ splitOn sep s) :
    sep ∉ part := by
  induction s generalizing part with
  | nil =>
    rw [List.mem_singleton.1 h]
    exact List.not_mem_nil
  | cons c s ih =>
    rw [splitOn] at h
    split at h
    · rcases List.mem_cons.1 h with rfl | h
      · exact List.not_mem_nil
      · exact ih h
    · rename_i hc
      split at h
      · rw [List.mem_singleton.1 h, List.mem_singleton]
        exact Ne.symm hc
      · rename_i first parts hparts
        rw [hparts] at ih
        rcases List.mem_cons.1 h with rfl | h
        · rw [List.mem_cons, not_or]
          exact ⟨Ne.symm hc, ih List.mem_cons_self⟩
        · exact ih (List.mem_cons_of_mem first h)

theorem splitOnce_append_cons {sep : Char} {s rest : List Char} (h : sep ∉ s) :
    splitOnce sep (s ++ sep :: rest) = some (s, rest) := by
  induction s with
  | nil => simp [splitOnce]
  | cons c s ih =>
    rw [List.mem_cons, not_or] at h
    rw [List.cons_append, splitOnce, if_neg (Ne.symm h.1), ih h.2, Option.map_some]

theorem notMem_of_splitOnce {sep : Char} {s before after : List Char}
    (h : splitOnce sep s = some (before, after)) : sep ∉ before := by
  induction s generalizing before with
  | nil => cases h
  | cons c s ih =>
    rw [splitOnce] at h
    split at h
    · cases h
      exact List.not_mem_nil
    · rename_i hc
      obtain ⟨⟨rest, after⟩, hrest, ⟨⟩⟩ := Option.map_eq_some_iff.1 h
      rw [List.mem_cons, not_or]
      exact ⟨Ne.symm hc, ih hrest⟩

theorem notMem_of_splitOnce_eq_none {sep : Char} {s : List Char} (h : splitOnce sep s = none) :
    sep ∉ s := by
  induction s with
  | nil => exact List.not_mem_nil
  | cons c s ih =>
    rw [splitOnce] at h
    split at h
    · cases h
    · rename_i hc
      rw [List.mem_cons, not_or]
      exact ⟨Ne.symm hc, ih (Option.map_eq_none_iff.1 h)⟩

theorem splitOnce_eq_none {sep : Char} {s : List Char} (h : sep ∉ s) : splitOnce sep s = none := by
  induction s with
  | nil => rfl
  | cons c s ih =>
    rw [List.mem_cons, not_or] at h
    rw [splitOnce, if_neg (Ne.symm h.1), ih h.2, Option.map_none]

end Letterpress.Text
