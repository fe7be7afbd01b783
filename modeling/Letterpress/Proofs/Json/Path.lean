/-
  Paths, and the places that they lead to.

  * `At steps v w`: the steps, each a key of an object or an index of an array, lead from the value
    `v` to the value `w`.
  * `Spells s step`: a segment of a path is a key, and a numeral is an index as well.  What counts
    is the value that the segment meets.
  * `Stuck s v`: the segment leads nowhere from the value.
  * `member?_eq_some_iff`, `member?_eq_none_iff`: one segment; `follow_eq_some_iff`,
    `follow_eq_none_iff`: several segments, one after the other.
  * `resolve_exact`: **a path is resolved to the value at its place**, and to nothing exactly if it
    gets stuck; its last segment is a step from the value of the path before it.
-/
import Letterpress.Json.Path
import Letterpress.Proofs.Json.Ordered
import Letterpress.Proofs.Text.Cutting
import Mathlib.Data.List.Forall2

namespace Letterpress

/-! ## Numerals -/

namespace Decimal

variable {bound n : Nat} {s : List Char}

/-- The digits of a number, with or without a plus in front. -/
inductive Numeral : List Char → Nat → Prop
  | digits {ds : List Char} : ds ≠ [] → (∀ c ∈ ds, c.isDigit = true) →
      Numeral ds (Nat.ofDigitChars 10 ds 0)
  | signed {ds : List Char} : ds ≠ [] → (∀ c ∈ ds, c.isDigit = true) →
      Numeral ('+' :: ds) (Nat.ofDigitChars 10 ds 0)

theorem numeral_toDigits (n : Nat) : Numeral (Nat.toDigits 10 n) n := by
  have hnumeral : Numeral (Nat.toDigits 10 n) (Nat.ofDigitChars 10 (Nat.toDigits 10 n) 0) :=
    .digits Nat.toDigits_ne_nil fun _ hc => Nat.isDigit_of_mem_toDigits (by decide) (by decide) hc
  rwa [Nat.ofDigitChars_ten_toDigits] at hnumeral

/-- The number that digits without a sign are, if it is below the bound. -/
def unsigned? (bound : Nat) (ds : List Char) : Option Nat :=
  if ds.isEmpty || !ds.all Char.isDigit then none
  else if natOf ds < bound then some (natOf ds) else none

theorem unsigned?_eq_some_iff {ds : List Char} :
    unsigned? bound ds = some n ↔
      (ds ≠ [] ∧ (∀ c ∈ ds, c.isDigit = true) ∧ Nat.ofDigitChars 10 ds 0 = n) ∧ n < bound := by
  have hvalue : natOf ds = Nat.ofDigitChars 10 ds 0 := rfl
  rw [unsigned?, hvalue]
  constructor
  · intro h
    split at h
    · cases h
    · rename_i hdigits
      split at h
      · rename_i hlt
        cases h
        simp only [Bool.or_eq_true, Bool.not_eq_true', not_or, Bool.not_eq_true,
          Bool.not_eq_false, List.isEmpty_eq_false_iff, List.all_eq_true] at hdigits
        exact ⟨⟨hdigits.1, hdigits.2, rfl⟩, hlt⟩
      · cases h
  · rintro ⟨⟨hne, hdigits, rfl⟩, hlt⟩
    rw [List.all_eq_true.2 hdigits, List.isEmpty_eq_false_iff.2 hne, if_pos hlt]
    rfl

theorem index?_signed (ds : List Char) : index? bound ('+' :: ds) = unsigned? bound ds := rfl

theorem index?_unsigned (h : ∀ ds, s ≠ '+' :: ds) : index? bound s = unsigned? bound s := by
  unfold index?
  dsimp only
  split
  · exact absurd rfl (h _)
  · rfl

/-- **An index is read from a numeral**, if it is below the bound. -/
theorem index?_eq_some_iff : index? bound s = some n ↔ Numeral s n ∧ n < bound := by
  constructor
  · intro h
    by_cases hsigned : ∃ ds, s = '+' :: ds
    · obtain ⟨ds, rfl⟩ := hsigned
      rw [index?_signed, unsigned?_eq_some_iff] at h
      obtain ⟨⟨hne, hdigits, rfl⟩, hlt⟩ := h
      exact ⟨.signed hne hdigits, hlt⟩
    · rw [index?_unsigned (not_exists.1 hsigned), unsigned?_eq_some_iff] at h
      obtain ⟨⟨hne, hdigits, rfl⟩, hlt⟩ := h
      exact ⟨.digits hne hdigits, hlt⟩
  · rintro ⟨h, hlt⟩
    cases h with
    | digits hne hdigits =>
      have hunsigned : ∀ ds, s ≠ '+' :: ds := by
        rintro ds rfl
        cases hdigits '+' List.mem_cons_self
      rw [index?_unsigned hunsigned]
      exact unsigned?_eq_some_iff.2 ⟨⟨hne, hdigits, rfl⟩, hlt⟩
    | signed hne hdigits =>
      rw [index?_signed]
      exact unsigned?_eq_some_iff.2 ⟨⟨hne, hdigits, rfl⟩, hlt⟩

theorem Numeral.unique {m : Nat} (hm : Numeral s m) (hn : Numeral s n) : m = n := by
  have hread {k : Nat} (hk : Numeral s k) (hle : k ≤ max m n) : index? (max m n + 1) s = some k :=
    index?_eq_some_iff.2 ⟨hk, Nat.lt_succ_of_le hle⟩
  exact Option.some.inj ((hread hm (Nat.le_max_left m n)).symm.trans
    (hread hn (Nat.le_max_right m n)))

end Decimal

namespace Json

open Decimal Text

/-! ## Places -/

/-- A step into a value: a key of an object, or an index of an array. -/
inductive Step where
  | key (k : String)
  | index (i : Nat)

/-- The steps lead from one value to the other. -/
inductive At : List Step → Json → Json → Prop
  | here (v : Json) : At [] v v
  | key {ms : Members} {k : String} {v w : Json} {steps : List Step} :
      Dict.get? ms k = some v → At steps v w → At (.key k :: steps) (.object ms) w
  | index {items : List Json} {i : Nat} {v w : Json} {steps : List Step} :
      items[i]? = some v → At steps v w → At (.index i :: steps) (.array items) w

/-- A segment of a path stands for a key, and a numeral for an index, too. -/
inductive Spells : String → Step → Prop
  | key (k : String) : Spells k (.key k)
  | index {s : String} {i : Nat} : Numeral s.toList i → i < wordBound → Spells s (.index i)

/-- The segment leads nowhere from the value. -/
inductive Stuck : String → Json → Prop
  | missing {s : String} {ms : Members} : s ∉ ms.keys → Stuck s (.object ms)
  /-- No array has as many items as the bound. -/
  | pastEnd {s : String} {i : Nat} {items : List Json} :
      Numeral s.toList i → items.length ≤ i ∨ wordBound ≤ i → Stuck s (.array items)
  | noNumeral {s : String} {items : List Json} :
      (∀ i, ¬ Numeral s.toList i) → Stuck s (.array items)
  | scalar {s : String} {v : Json} : v.isObject = false → v.isArray = false → Stuck s v

variable {s : String} {segs : List String} {v w : Json}

/-- The first step leads to a value from which the others lead on. -/
theorem at_cons_iff {step : Step} {steps : List Step} :
    At (step :: steps) v w ↔ ∃ u, At [step] v u ∧ At steps u w := by
  constructor
  · intro h
    cases h with
    | key hget h => exact ⟨_, .key hget (.here _), h⟩
    | index hget h => exact ⟨_, .index hget (.here _), h⟩
  · rintro ⟨u, hu, h⟩
    cases hu with
    | key hget hu =>
      cases hu
      exact .key hget h
    | index hget hu =>
      cases hu
      exact .index hget h

/-! ## One segment -/

/-- **One segment** leads to what one of the steps leads to that it stands for. -/
theorem member?_eq_some_iff : v.member? s = some w ↔ ∃ step, Spells s step ∧ At [step] v w := by
  constructor
  · intro h
    cases v with
    | object ms => exact ⟨.key s, .key s, .key h (.here w)⟩
    | array items =>
      obtain ⟨i, hi, hw⟩ := Option.bind_eq_some_iff.1 h
      obtain ⟨hnumeral, hbound⟩ := index?_eq_some_iff.1 hi
      exact ⟨.index i, .index hnumeral hbound, .index hw (.here w)⟩
    | null | bool | number | string => cases h
  · rintro ⟨step, hs, h⟩
    cases h with
    | key hget h =>
      cases h
      cases hs
      exact hget
    | index hget h =>
      cases h
      cases hs with
      | index hnumeral hbound =>
        rw [member?, index?_eq_some_iff.2 ⟨hnumeral, hbound⟩]
        exact hget

/-- **One segment leads nowhere** exactly if it gets stuck. -/
theorem member?_eq_none_iff : v.member? s = none ↔ Stuck s v := by
  constructor
  · intro h
    cases v with
    | object ms => exact .missing (Dict.get?_eq_none_iff.1 h)
    | array items =>
      by_cases hs : ∃ i, Numeral s.toList i
      · obtain ⟨i, hi⟩ := hs
        refine .pastEnd hi ?_
        by_contra hin
        rw [not_or, Nat.not_le, Nat.not_le] at hin
        rw [member?, index?_eq_some_iff.2 ⟨hi, hin.2⟩, Option.bind_some,
          List.getElem?_eq_getElem hin.1] at h
        cases h
      · exact .noNumeral (not_exists.1 hs)
    | null | bool | number | string => exact .scalar rfl rfl
  · intro h
    -- what is read as an index is one, and is in the array
    have hindex {items : List Json} (hout : ∀ i, Numeral s.toList i → i < wordBound →
        items.length ≤ i) : (Json.array items).member? s = none := by
      refine Option.bind_eq_none_iff.2 fun i hi => List.getElem?_eq_none ?_
      obtain ⟨hnumeral, hbound⟩ := index?_eq_some_iff.1 hi
      exact hout i hnumeral hbound
    cases h with
    | missing hkey => exact Dict.get?_eq_none_iff.2 hkey
    | pastEnd hi hout =>
      refine hindex fun j hj hbound => ?_
      cases hj.unique hi
      exact hout.resolve_right (Nat.not_le.2 hbound)
    | noNumeral hnone => exact hindex fun i hi _ => absurd hi (hnone i)
    | scalar hobject harray =>
      cases v with
      | object => cases hobject
      | array => cases harray
      | null | bool | number | string => rfl

/-! ## Several segments -/

theorem follow_append (p q : List String) (v : Json) :
    follow (p ++ q) v = (follow p v).bind (follow q) := by
  induction p generalizing v with
  | nil => rfl
  | cons s p ih =>
    rw [List.cons_append, follow, follow, Option.bind_assoc]
    exact congrArg _ (funext ih)

/-- **Segments lead to the value** at the end of the steps that they stand for. -/
theorem follow_eq_some_iff :
    follow segs v = some w ↔ ∃ steps, List.Forall₂ Spells segs steps ∧ At steps v w := by
  induction segs generalizing v with
  | nil =>
    constructor
    · rintro ⟨⟩
      exact ⟨[], .nil, .here _⟩
    · rintro ⟨steps, hspells, h⟩
      cases hspells
      cases h
      rfl
  | cons s segs ih =>
    rw [follow, Option.bind_eq_some_iff]
    constructor
    · rintro ⟨u, hu, hw⟩
      obtain ⟨step, hs, hstep⟩ := member?_eq_some_iff.1 hu
      obtain ⟨steps, hsegs, hsteps⟩ := ih.1 hw
      exact ⟨step :: steps, .cons hs hsegs, at_cons_iff.2 ⟨u, hstep, hsteps⟩⟩
    · rintro ⟨steps, hspells, h⟩
      cases hspells with
      | cons hs hsegs =>
        obtain ⟨u, hstep, hsteps⟩ := at_cons_iff.1 h
        exact ⟨u, member?_eq_some_iff.2 ⟨_, hs, hstep⟩, ih.2 ⟨_, hsegs, hsteps⟩⟩

/-- Segments that lead nowhere get stuck on the way. -/
theorem exists_stuck : ∀ {segs : List String} {v : Json}, follow segs v = none →
    ∃ before s after u, segs = before ++ s :: after ∧ follow before v = some u ∧ Stuck s u
  | [], _, h => by cases h
  | s :: segs, v, h => by
    cases hs : v.member? s with
    | none => exact ⟨[], s, segs, v, rfl, rfl, member?_eq_none_iff.1 hs⟩
    | some u =>
      rw [follow, hs, Option.bind_some] at h
      obtain ⟨before, s', after, u', rfl, hbefore, hstuck⟩ := exists_stuck h
      refine ⟨s :: before, s', after, u', rfl, ?_, hstuck⟩
      rw [follow, hs, Option.bind_some, hbefore]

/-- **Segments lead nowhere** exactly if one of them gets stuck at the value that those before it
    lead to. -/
theorem follow_eq_none_iff :
    follow segs v = none ↔
      ∃ before s after u, segs = before ++ s :: after ∧ follow before v = some u ∧ Stuck s u := by
  refine ⟨exists_stuck, ?_⟩
  rintro ⟨before, s, after, u, rfl, hbefore, hstuck⟩
  rw [follow_append, hbefore, Option.bind_some, follow, member?_eq_none_iff.2 hstuck,
    Option.bind_none]

/-! ## Paths -/

theorem segments_of_notMem {path : String} (h : '.' ∉ path.toList) : segments path = [path] := by
  rw [segments, splitOn_of_notMem h, List.map_singleton, String.ofList_toList]

theorem exists_segments (path : String) : ∃ first rest, segments path = first :: rest := by
  refine List.exists_cons_of_ne_nil fun h => ?_
  exact splitOn_ne_nil '.' path.toList (List.map_eq_nil_iff.1 h)

/-- The segments that a path is joined from are those that it is divided into. -/
theorem segments_intercalate (hne : segs ≠ []) (h : ∀ s ∈ segs, '.' ∉ s.toList) :
    segments (".".intercalate segs) = segs := by
  have hdot : ".".toList = ['.'] := rfl
  have hparts : ∀ part ∈ segs.map String.toList, '.' ∉ part := List.forall_mem_map.2 h
  have hne' : segs.map String.toList ≠ [] := fun hnil => hne (List.map_eq_nil_iff.1 hnil)
  rw [segments, String.toList_intercalate, hdot, splitOn_intercalate hne' hparts, List.map_map]
  exact (List.map_congr_left fun s _ => String.ofList_toList).trans (List.map_id segs)

/-- A segment behind a dot is the last one. -/
theorem segments_append (p : String) (h : '.' ∉ s.toList) :
    segments (p ++ "." ++ s) = segments p ++ [s] := by
  have htext : (p ++ "." ++ s).toList = p.toList ++ '.' :: s.toList := by simp
  rw [segments, htext, splitOn_append, splitOn_of_notMem h, List.map_append, List.map_singleton,
    String.ofList_toList, segments]

/-- The first segment is a key of the data, and the others are steps from its value on. -/
theorem resolve_of_segments {path first : String} {rest : List String}
    (h : segments path = first :: rest) (data : Members) :
    resolve path data = (Dict.get? data first).bind (follow rest) := by
  rw [resolve, h]
  rfl

/-! ## Steps in a path -/

/-- The step as it is written in a path. -/
def Step.text : Step → String
  | .key k => k
  | .index i => toString i

/-- A step that can be written in a path: there is no dot in its key, and its index is one of an
    array. -/
def Step.Plain : Step → Prop
  | .key k => '.' ∉ k.toList
  | .index i => i < wordBound

instance : (step : Step) → Decidable step.Plain
  | .key k => inferInstanceAs (Decidable ('.' ∉ k.toList))
  | .index i => inferInstanceAs (Decidable (i < wordBound))

theorem toList_text_index (i : Nat) : (Step.index i).text.toList = Nat.toDigits 10 i := by
  rw [Step.text, Nat.toString_eq_repr, Nat.toList_repr]

theorem Step.Plain.spells {step : Step} (h : step.Plain) : Spells step.text step := by
  cases step with
  | key k => exact .key k
  | index i =>
    refine .index ?_ h
    rw [toList_text_index]
    exact numeral_toDigits i

theorem Step.Plain.dot_notMem {step : Step} (h : step.Plain) : '.' ∉ step.text.toList := by
  cases step with
  | key k => exact h
  | index i =>
    rw [toList_text_index]
    intro hdot
    have hdigit : '.'.isDigit = true := Nat.isDigit_of_mem_toDigits (by decide) (by decide) hdot
    cases hdigit

/-! ## Resolving -/

/-- **A path is resolved to the value at its place.**  A path that is written from keys without dots
    and from indexes leads where these steps lead.  Whatever its segments are, a path has the value
    at the end of steps that its segments stand for, and it has no value exactly if a segment gets
    stuck at the value of those before it: a key is missing, an index is past the end of an array,
    an array meets no numeral, or the value is a scalar.  A path with one more segment has the value
    of a step from the object or array that the path before it has. -/
theorem resolve_exact (data : Members) :
    (∀ steps ≠ [], (∀ step ∈ steps, step.Plain) → ∀ v, At steps (.object data) v →
      resolve (".".intercalate (steps.map Step.text)) data = some v) ∧
    (∀ segs ≠ [], (∀ s ∈ segs, '.' ∉ s.toList) →
      (∀ v, resolve (".".intercalate segs) data = some v ↔
        ∃ steps, List.Forall₂ Spells segs steps ∧ At steps (.object data) v) ∧
      (resolve (".".intercalate segs) data = none ↔
        ∃ before s after steps v, segs = before ++ s :: after ∧
          List.Forall₂ Spells before steps ∧ At steps (.object data) v ∧ Stuck s v)) ∧
    ∀ (p s : String) (w : Json), '.' ∉ s.toList → resolve (p ++ "." ++ s) data = some w →
      ∃ v, resolve p data = some v ∧ (v.isObject = true ∨ v.isArray = true) ∧
        ∃ step, Spells s step ∧ At [step] v w := by
  refine ⟨fun steps hne hplain v h => ?_, fun segs hne hdots => ⟨fun v => ?_, ?_⟩,
    fun p s w hdot h => ?_⟩
  · have hdots : ∀ s ∈ steps.map Step.text, '.' ∉ s.toList :=
      List.forall_mem_map.2 fun step hstep => (hplain step hstep).dot_notMem
    have hspells : List.Forall₂ Spells (steps.map Step.text) steps := by
      rw [List.forall₂_map_left_iff, List.forall₂_same]
      exact fun step hstep => (hplain step hstep).spells
    rw [resolve, segments_intercalate (fun hnil => hne (List.map_eq_nil_iff.1 hnil)) hdots]
    exact follow_eq_some_iff.2 ⟨steps, hspells, h⟩
  · rw [resolve, segments_intercalate hne hdots]
    exact follow_eq_some_iff
  · rw [resolve, segments_intercalate hne hdots, follow_eq_none_iff]
    constructor
    · rintro ⟨before, s, after, v, hsegs, hbefore, hstuck⟩
      obtain ⟨steps, hspells, hv⟩ := follow_eq_some_iff.1 hbefore
      exact ⟨before, s, after, steps, v, hsegs, hspells, hv, hstuck⟩
    · rintro ⟨before, s, after, steps, v, hsegs, hspells, hv, hstuck⟩
      exact ⟨before, s, after, v, hsegs, follow_eq_some_iff.2 ⟨steps, hspells, hv⟩, hstuck⟩
  · rw [resolve, segments_append p hdot, follow_append] at h
    obtain ⟨v, hv, hlast⟩ := Option.bind_eq_some_iff.1 h
    obtain ⟨w', hw, ⟨⟩⟩ := Option.bind_eq_some_iff.1 hlast
    obtain ⟨step, hspells, hstep⟩ := member?_eq_some_iff.1 hw
    refine ⟨v, hv, ?_, step, hspells, hstep⟩
    cases hstep with
    | key => exact .inl rfl
    | index => exact .inr rfl

/-- A numeral that is a key and an empty key, in front of an index with and without a sign. -/
theorem resolve_exact_of_numeral_key :
    let data : Members := [("0", .object [("", .array [.null, .string "b"])])]
    let steps : List Step := [.key "0", .key "", .index 1]
    (∀ step ∈ steps, step.Plain) ∧ At steps (.object data) (.string "b") ∧
      resolve "0..1" data = some (.string "b") ∧ resolve "0..+01" data = some (.string "b") ∧
      resolve "0..2" data = none ∧
      ∃ v, resolve "0." data = some v ∧ (v.isObject = true ∨ v.isArray = true) ∧
        ∃ step, Spells "1" step ∧ At [step] v (.string "b") := by
  intro data steps
  obtain ⟨hplaces, hsegments, hlast⟩ := resolve_exact data
  have hplain : ∀ step ∈ steps, step.Plain := by decide
  have hfront : At [.key "0", .key ""] (.object data) (.array [.null, .string "b"]) :=
    .key rfl (.key rfl (.here _))
  have hplace : At steps (.object data) (.string "b") := .key rfl (.key rfl (.index rfl (.here _)))
  have hone : resolve "0..1" data = some (.string "b") := hplaces steps nofun hplain _ hplace
  have hdots (last : String) (h : '.' ∉ last.toList) : ∀ s ∈ ["0", "", last], '.' ∉ s.toList := by
    simp only [List.forall_mem_cons]
    exact ⟨by decide, by decide, h, nofun⟩
  have hsigned : Numeral "+01".toList 1 :=
    @Numeral.signed ['0', '1'] (List.cons_ne_nil _ _) (List.all_eq_true.1 rfl)
  have htwo : Numeral "2".toList 2 := .digits (List.cons_ne_nil _ _) (List.all_eq_true.1 rfl)
  refine ⟨hplain, hplace, hone, ?_, ?_, hlast "0." "1" _ (by decide) hone⟩
  · refine ((hsegments ["0", "", "+01"] nofun (hdots _ (by decide))).1 _).2 ⟨steps, ?_, hplace⟩
    exact .cons (.key _) (.cons (.key _) (.cons (.index hsigned (by decide)) .nil))
  · refine (hsegments ["0", "", "2"] nofun (hdots _ (by decide))).2.2
      ⟨["0", ""], "2", [], _, _, rfl, .cons (.key _) (.cons (.key _) .nil), hfront, ?_⟩
    exact .pastEnd htwo (.inl (by decide))

end Json

end Letterpress
