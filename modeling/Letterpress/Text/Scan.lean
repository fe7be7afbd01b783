/-
  Reading texts from the left.

  * `afterStart? pat s` is what follows `pat` at the start of `s`.
  * `breakOn pat s` cuts `s` around the first occurrence of `pat`; `breakOn_eq_some` says that the
    parts put together give `s` back.
  * `splitOnce c s` cuts `s` around the first `c`, and `splitOn c s` around every `c`;
    `joinWith_splitOn` says that nothing else is lost.
  * `replaceAll pat new s` replaces the occurrences of `pat`, leftmost first.
  * `utf8Length s` is the number of bytes of `s` in UTF-8, the unit of all reported offsets.
-/

namespace Letterpress.Text

/-! ## Cutting -/

/-- What follows `pat` in `s`, if `s` starts with it. -/
def afterStart? : List Char → List Char → Option (List Char)
  | [], s => some s
  | _ :: _, [] => none
  | p :: pat, c :: s => if p = c then afterStart? pat s else none

/-- The text before and after the first occurrence of `pat`. -/
def breakOn (pat : List Char) : List Char → Option (List Char × List Char)
  | [] => if pat.isEmpty then some ([], []) else none
  | c :: s =>
    match afterStart? pat (c :: s) with
    | some rest => some ([], rest)
    | none => (breakOn pat s).map fun (before, after) => (c :: before, after)

/-- `pat` occurs in `s`. -/
def occursIn (pat s : List Char) : Bool := (breakOn pat s).isSome

/-- The text before and after the first `sep`. -/
def splitOnce (sep : Char) : List Char → Option (List Char × List Char)
  | [] => none
  | c :: s =>
    if c = sep then some ([], s)
    else (splitOnce sep s).map fun (before, after) => (c :: before, after)

/-- The parts of the text between the separators; always at least one. -/
def splitOn (sep : Char) : List Char → List (List Char)
  | [] => [[]]
  | c :: s =>
    if c = sep then [] :: splitOn sep s
    else
      match splitOn sep s with
      | [] => [[c]]
      | part :: parts => (c :: part) :: parts

/-- The parts with a separator between neighbours. -/
def joinWith (sep : List Char) : List (List Char) → List Char
  | [] => []
  | [part] => part
  | part :: parts => part ++ sep ++ joinWith sep parts

/-- The text with the occurrences of `pat` replaced, leftmost first; `fuel` bounds their number. -/
def replaceUpTo (pat new : List Char) : Nat → List Char → List Char
  | 0, s => s
  | fuel + 1, s =>
    match breakOn pat s with
    | none => s
    | some (before, after) => before ++ new ++ replaceUpTo pat new fuel after

/-- The text with every occurrence of `pat` replaced, leftmost first. -/
def replaceAll (pat new s : List Char) : List Char := replaceUpTo pat new s.length s

/-! ## Measuring -/

/-- The number of bytes of the text in UTF-8. -/
def utf8Length : List Char → Nat
  | [] => 0
  | c :: s => c.utf8Size + utf8Length s

/-! ## Laws -/

theorem afterStart?_eq_some_iff {pat s rest : List Char} :
    afterStart? pat s = some rest ↔ s = pat ++ rest := by
  induction pat generalizing s with
  | nil => simp [afterStart?]
  | cons p pat ih =>
    cases s with
    | nil => simp [afterStart?]
    | cons c s =>
      simp only [afterStart?, List.cons_append, List.cons.injEq]
      split
      · rename_i h; simp [ih, h]
      · rename_i h; simp [Ne.symm h]

theorem breakOn_eq_some {pat s before after : List Char}
    (h : breakOn pat s = some (before, after)) : s = before ++ pat ++ after := by
  induction s generalizing before after with
  | nil =>
    simp only [breakOn] at h
    split at h <;> simp_all
  | cons c s ih =>
    simp only [breakOn] at h
    split at h
    · rename_i rest hr
      have := afterStart?_eq_some_iff.1 hr
      simp_all
    · rcases hb : breakOn pat s with _ | ⟨b, a⟩
      · simp [hb] at h
      · simp only [hb, Option.map_some, Option.some.injEq, Prod.mk.injEq] at h
        obtain ⟨rfl, rfl⟩ := h
        simp [ih hb]

theorem splitOnce_eq_some {sep : Char} {s before after : List Char}
    (h : splitOnce sep s = some (before, after)) : s = before ++ sep :: after := by
  induction s generalizing before after with
  | nil => simp [splitOnce] at h
  | cons c s ih =>
    simp only [splitOnce] at h
    split at h
    · simp_all
    · rcases hb : splitOnce sep s with _ | ⟨b, a⟩
      · simp [hb] at h
      · simp only [hb, Option.map_some, Option.some.injEq, Prod.mk.injEq] at h
        obtain ⟨rfl, rfl⟩ := h
        simp [ih hb]

theorem splitOn_ne_nil (sep : Char) (s : List Char) : splitOn sep s ≠ [] := by
  cases s with
  | nil => simp [splitOn]
  | cons c s =>
    simp only [splitOn]
    split
    · simp
    · split <;> simp

theorem joinWith_splitOn (sep : Char) (s : List Char) : joinWith [sep] (splitOn sep s) = s := by
  induction s with
  | nil => rfl
  | cons c s ih =>
    simp only [splitOn]
    split
    · rename_i h
      subst h
      cases hs : splitOn c s with
      | nil => exact absurd hs (splitOn_ne_nil c s)
      | cons p ps => simp [joinWith, ← hs, ih]
    · cases hs : splitOn sep s with
      | nil => exact absurd hs (splitOn_ne_nil sep s)
      | cons p ps =>
        rw [hs] at ih
        cases ps with
        | nil => simpa [joinWith] using ih
        | cons q qs => simpa [joinWith] using ih

end Letterpress.Text
