/-
  Which tags a text mentions.

  A mention is what follows `{{`, up to the next `}` or `|`.  The search for mentions goes on after
  each of them, so that braces inside a mention open nothing.

  * `NothingOpen before`: no mention that starts in the text `before` runs on to its end.
  * `mem_items_of_nothingOpen`: **what follows braces before which nothing is open is mentioned.**
  * `swallowed_of_open`: all other braces are swallowed by the mention that is open before them.
  * `Clear s`: nothing is open before any braces of `s`.
  * `mem_mentionsIn_of_nothingOpen`: a key that follows braces before which nothing is open is
    mentioned, whatever stands behind it.
-/
import Letterpress.Proofs.Tag.Writing
import Letterpress.Tag.Mention
import Mathlib.Data.List.Infix

namespace Letterpress.Tag

open Text

/-! ## Runs -/

/-- A mention ends before the character. -/
def isStop (c : Char) : Bool := c = '}' || c = '|'

/-- Nothing in the text ends a mention. -/
def Unstopped (s : List Char) : Prop := ∀ c ∈ s, isStop c = false

/-- A mention ends before the text. -/
def Stopped (s : List Char) : Prop := ∀ c ∈ s.head?, isStop c = true

theorem stopped_cons {d : Char} {s : List Char} : Stopped (d :: s) ↔ isStop d = true := by
  simp [Stopped]

theorem unstopped_nil : Unstopped [] := fun _ hc => absurd hc List.not_mem_nil

theorem Unstopped.append {s t : List Char} (hs : Unstopped s) (ht : Unstopped t) :
    Unstopped (s ++ t) := List.forall_mem_append.2 ⟨hs, ht⟩

theorem Unstopped.cons_brace {s : List Char} (hs : Unstopped s) : Unstopped ('{' :: s) :=
  List.forall_mem_cons.2 ⟨by decide, hs⟩

theorem IsKey.unstopped {key : List Char} (h : IsKey key) : Unstopped key := by
  intro c hc
  have hkey := h.chars c hc
  rw [isStop, Bool.or_eq_false_iff, decide_eq_false_iff_not, decide_eq_false_iff_not]
  constructor <;> rintro rfl <;> exact absurd hkey (by decide)

theorem isStop_eq (c : Char) : (c ≠ '}' && c ≠ '|') = !isStop c := by
  rw [isStop, Bool.not_or]
  simp

/-- A mention is read up to its end. -/
theorem readMention?_append {body rest : List Char} (hne : body ≠ []) (hbody : Unstopped body)
    (hrest : Stopped rest) :
    readMention? (opening ++ (body ++ rest)) = some (String.ofList body, rest) := by
  have hopen : afterStart? opening (opening ++ (body ++ rest)) = some (body ++ rest) :=
    afterStart?_eq_some_iff.2 rfl
  have hspan : (body ++ rest).span (fun c => c ≠ '}' && c ≠ '|') = (body, rest) := by
    simp only [isStop_eq]
    exact span_append (fun c hc => by rw [hbody c hc]; rfl) (fun c hc => by rw [hrest c hc]; rfl)
  simp only [readMention?, hopen, Option.bind_eq_bind, Option.bind_some, hspan]
  rw [if_neg (by simpa using hne)]

theorem readMention?_eq_some {s rest : List Char} {m : String}
    (h : readMention? s = some (m, rest)) :
    s = opening ++ (m.toList ++ rest) ∧ Unstopped m.toList ∧ Stopped rest := by
  obtain ⟨tail, htail, h⟩ := Option.bind_eq_some_iff.1 h
  rw [afterStart?_eq_some_iff] at htail
  simp only [isStop_eq, List.span_eq_takeWhile_dropWhile] at h
  split at h
  · cases h
  · cases h
    rw [String.toList_ofList, List.takeWhile_append_dropWhile]
    refine ⟨htail, fun c hc => ?_, fun c hc => ?_⟩
    · simpa using List.mem_takeWhile_imp hc
    · simpa using head?_dropWhile c hc

/-! ## What is open -/

/-- No mention that starts in the text runs on through it to a brace behind it. -/
def NothingOpen (before : List Char) : Prop :=
  ∀ run, Unstopped run → ¬ opening ++ run <:+ before ++ ['{']

instance (s : List Char) : Decidable (Unstopped s) :=
  decidable_of_iff (s.all fun c => !isStop c) (by simp [Unstopped])

instance (before : List Char) : Decidable (NothingOpen before) :=
  decidable_of_iff (∀ t ∈ (before ++ ['{']).tails, ∀ run ∈ afterStart? opening t, ¬ Unstopped run)
    <| by
      constructor
      · intro h run hrun hopen
        exact h _ ((List.mem_tails _ _).2 hopen) run (afterStart?_eq_some_iff.2 rfl) hrun
      · intro h t ht run hread hrun
        rw [Option.mem_def, afterStart?_eq_some_iff] at hread
        exact h run hrun (hread ▸ (List.mem_tails _ _).1 ht)

theorem NothingOpen.of_suffix {before before' : List Char} (h : NothingOpen before)
    (hsuffix : before' <:+ before) : NothingOpen before' := by
  obtain ⟨x, rfl⟩ := hsuffix
  intro run hrun hopen
  refine h run hrun (hopen.trans ?_)
  rw [List.append_assoc]
  exact List.suffix_append x _

/-- If something is open, then there is a first opening that is. -/
theorem exists_first_open {before : List Char} (h : ¬ NothingOpen before) :
    ∃ x run, Unstopped run ∧ before ++ ['{'] = x ++ (opening ++ run) ∧ NothingOpen x := by
  induction hn : before.length using Nat.strong_induction_on generalizing before with
  | _ n ih =>
    rw [NothingOpen] at h
    push Not at h
    obtain ⟨run, hrun, x, hx⟩ := h
    by_cases hopen : NothingOpen x
    · exact ⟨x, run, hrun, hx.symm, hopen⟩
    · have hshort : x.length < n := by
        have hlength := congrArg List.length hx
        simp only [List.length_append, opening, List.length_cons, List.length_nil] at hlength
        omega
      obtain ⟨x', run', hrun', hx', hfirst⟩ := ih x.length hshort hopen rfl
      refine ⟨x', run' ++ '{' :: run, hrun'.append hrun.cons_brace, ?_, hfirst⟩
      calc before ++ ['{'] = (x ++ ['{']) ++ '{' :: run := by rw [← hx]; simp [opening]
        _ = x' ++ (opening ++ (run' ++ '{' :: run)) := by rw [hx']; simp

/-! ## What is mentioned -/

/-- A mention that is read before some braces ends before them, if nothing is open there. -/
theorem exists_of_readMention? {before tail rest : List Char} {m : String}
    (h : NothingOpen before) (hbefore : before ≠ [])
    (hread : readMention? (before ++ (opening ++ tail)) = some (m, rest)) :
    ∃ between, before = opening ++ m.toList ++ between ∧ rest = between ++ (opening ++ tail) := by
  obtain ⟨hs, hm, -⟩ := readMention?_eq_some hread
  rw [← List.append_assoc opening, List.append_eq_append_iff] at hs
  rcases hs with ⟨overlap, hoverlap, htail⟩ | ⟨between, hbetween, hrest⟩
  · cases overlap with
    | nil =>
      rw [List.append_nil] at hoverlap
      exact ⟨[], by rw [hoverlap, List.append_nil], htail.symm⟩
    | cons c overlap =>
      -- the mention would have to contain the braces
      obtain rfl : '{' = c := (List.cons.inj htail).1
      have hrun : before ++ ['{'] <+: opening ++ m.toList := ⟨overlap, by rw [hoverlap]; simp⟩
      have hlength : opening.length ≤ (before ++ ['{']).length := by
        have hpositive := List.length_pos_iff.2 hbefore
        simp only [opening, List.length_append, List.length_cons, List.length_nil]
        omega
      obtain ⟨run, hopen⟩ :=
        List.prefix_of_prefix_length_le (List.prefix_append opening m.toList) hrun hlength
      rw [← hopen, List.prefix_append_right_inj] at hrun
      exact absurd (hopen ▸ List.suffix_rfl) (h run fun c hc => hm c (hrun.subset hc))
  · exact ⟨between, hbetween, hrest⟩

/-- **What follows braces is mentioned**, if nothing is open before them. -/
theorem mem_items_of_nothingOpen {before body rest : List Char} (h : NothingOpen before)
    (hne : body ≠ []) (hbody : Unstopped body) (hrest : Stopped rest) :
    String.ofList body ∈
      items (pieces readMention? (before ++ (opening ++ (body ++ rest)))) := by
  induction hn : before.length using Nat.strong_induction_on generalizing before with
  | _ n ih =>
    cases before with
    | nil =>
      have hread := readMention?_append hne hbody hrest
      rw [← List.append_assoc] at hread
      rw [List.nil_append, ← List.append_assoc, pieces_append_of_read (by simp [opening]) hread]
      exact List.mem_cons_self
    | cons c before =>
      cases hread : readMention? (c :: before ++ (opening ++ (body ++ rest))) with
      | none =>
        rw [List.cons_append] at hread ⊢
        rw [pieces_cons_of_none hread]
        exact ih before.length (by simp [← hn]) (h.of_suffix (List.suffix_cons c before)) rfl
      | some read =>
        obtain ⟨m, after⟩ := read
        obtain ⟨between, hbetween, rfl⟩ := exists_of_readMention? h (List.cons_ne_nil c before) hread
        have hshort : between.length < n := by
          rw [← hn, hbetween]
          simp only [opening, List.length_append, List.length_cons, List.length_nil]
          omega
        have hnext := ih between.length hshort (h.of_suffix ⟨_, hbetween.symm⟩) rfl
        rw [hbetween, List.append_assoc] at hread ⊢
        rw [pieces_append_of_read (by simp [opening]) hread]
        exact List.mem_cons_of_mem _ hnext

/-- **Other braces are swallowed**: what follows them ends a mention that has begun before. -/
theorem swallowed_of_open {before key rest : List Char} (h : ¬ NothingOpen before)
    (hkey : Unstopped key) (hrest : Stopped rest) :
    ∃ m ∈ items (pieces readMention? (before ++ (opening ++ (key ++ rest)))),
      '{' :: key <:+ m.toList := by
  obtain ⟨x, run, hrun, hx, hfirst⟩ := exists_first_open h
  have hs : before ++ (opening ++ (key ++ rest)) =
      x ++ (opening ++ ((run ++ '{' :: key) ++ rest)) := by
    calc before ++ (opening ++ (key ++ rest)) = (before ++ ['{']) ++ '{' :: (key ++ rest) := by
          simp [opening]
      _ = x ++ (opening ++ ((run ++ '{' :: key) ++ rest)) := by rw [hx]; simp
  rw [hs]
  refine ⟨_, mem_items_of_nothingOpen hfirst (by simp) (hrun.append hkey.cons_brace) hrest, ?_⟩
  rw [String.toList_ofList]
  exact List.suffix_append run _

/-! ## Texts where nothing is swallowed -/

/-- Nothing is open before any braces of the text. -/
def Clear (s : List Char) : Prop :=
  ∀ before tail, s = before ++ (opening ++ tail) → NothingOpen before

instance (s : List Char) : Decidable (Clear s) :=
  decidable_of_iff (∀ n < s.length, opening <+: s.drop n → NothingOpen (s.take n)) <| by
    constructor
    · rintro h before tail rfl
      have hn : before.length < (before ++ (opening ++ tail)).length := by simp [opening]
      have hopen := h before.length hn (by rw [List.drop_left]; exact List.prefix_append _ _)
      rwa [List.take_left] at hopen
    · rintro h n - ⟨tail, htail⟩
      exact h (s.take n) tail (by rw [htail, List.take_append_drop])

theorem Clear.of_infix {s t : List Char} (h : Clear s) (hinside : t <:+: s) : Clear t := by
  obtain ⟨x, y, rfl⟩ := hinside
  rintro before tail rfl
  exact (h (x ++ before) (tail ++ y) (by simp)).of_suffix (List.suffix_append x before)

/-- In a clear text no braces follow a run that is open. -/
theorem Clear.not_braces {s run : List Char} (h : Clear s) (hrun : Unstopped run) :
    ¬ opening ++ (run ++ opening) <:+: s := by
  rintro ⟨x, y, rfl⟩
  refine h (x ++ (opening ++ run)) y (by simp) (run ++ ['{']) ?_ ⟨x, by simp⟩
  exact hrun.append unstopped_nil.cons_brace

/-- A clear text has no three braces in a row. -/
theorem Clear.not_three {s : List Char} (h : Clear s) : ¬ '{' :: opening <:+: s := by
  rintro ⟨x, y, rfl⟩
  exact h (x ++ ['{']) y (by simp) [] unstopped_nil ⟨x, by simp [opening]⟩

/-! ## Keys -/

/-- **A key after braces is mentioned**, if nothing is open before them.  The bare word of the
    marker between two branches is left out. -/
theorem mem_mentionsIn_of_nothingOpen {s key : String} {before rest : List Char}
    (hs : s.toList = before ++ (opening ++ (key.toList ++ rest))) (h : NothingOpen before)
    (hkey : IsKey key.toList) (hrest : Stopped rest) (helse : key ≠ "else") :
    key ∈ mentionsIn s := by
  have hitem := mem_items_of_nothingOpen h hkey.nonempty hkey.unstopped hrest
  rw [← hs, String.ofList_toList] at hitem
  have htrim : trimText key = key := by
    rw [trimText, trim_of_notBlank fun c hc => isBlank_eq_false (hkey.chars c hc),
      String.ofList_toList]
  refine List.mem_filter.2 ⟨List.mem_map.2 ⟨key, hitem, htrim⟩, ?_⟩
  obtain ⟨c, cs, hc⟩ := List.exists_cons_of_ne_nil hkey.nonempty
  have hfirst : isKeyChar c = true := hkey.chars c (hc ▸ List.mem_cons_self)
  rw [isTagMention, hc]
  split
  · contradiction
  · rename_i heq
    obtain rfl := (List.cons.inj heq).1
    exact absurd hfirst (by decide)
  · rename_i heq
    obtain rfl := (List.cons.inj heq).1
    exact absurd hfirst (by decide)
  · simpa using helse

/-- Where a tag is read, its key stands after the braces, and a mention would end behind it. -/
theorem read?_eq_some {s rest : List Char} {t : Tag} (h : read? s = some (t, rest)) :
    IsKey t.key.toList ∧ ∃ d tail, isStop d = true ∧ s = opening ++ (t.key.toList ++ d :: tail) := by
  obtain ⟨hcanonical, rfl⟩ := read?_eq_some_iff.1 h
  refine ⟨hcanonical.key, ?_⟩
  rcases hcanonical.pipes with hpipes | ⟨body, -, -, hpipes⟩
  · exact ⟨'}', '}' :: rest, by decide, by simp [text, hpipes, closing]⟩
  · exact ⟨'|', body ++ (closing ++ rest), by decide, by simp [text, hpipes]⟩

end Letterpress.Tag
