/-
  Chains of pipes.

  * `Start v pipes w`: what a chain starts with, which is the value `v` or the argument of the last
    `default` pipe.  `start_iff` says that it is determined.
  * `steps fs pipes`: the formatters that a chain applies, `textAfter v steps`: the text of a value
    after them, each of which gets the text of the one before.
  * `Rearranged fs pipes pipes'`: a chain with its last `default` pipe at another place, or without a
    pipe that does not count.
  * `applyPipes_normal_form`: **a chain is its start and its steps**, and all chains with the same
    two are alike.
-/
import Letterpress.Tag.Processor

namespace Letterpress.Processor

/-! ## What a chain starts with -/

/-- The `default` pipe that counts. -/
def lastDefault? (pipes : List Tag.Pipe) : Option Tag.Pipe :=
  (pipes.filter fun p => p.name = "default").getLast?

/-- A `default` pipe behind which there is no other one. -/
def LastDefault (pipes : List Tag.Pipe) (d : Tag.Pipe) : Prop :=
  d.name = "default" ∧
    ∃ before after, pipes = before ++ d :: after ∧ ∀ p ∈ after, p.name ≠ "default"

theorem lastDefault?_append (l r : List Tag.Pipe) :
    lastDefault? (l ++ r) = (lastDefault? r).or (lastDefault? l) := by
  rw [lastDefault?, List.filter_append, List.getLast?_append]
  rfl

theorem lastDefault?_cons (p : Tag.Pipe) (ps : List Tag.Pipe) :
    lastDefault? (p :: ps) =
      (lastDefault? ps).or (if p.name = "default" then some p else none) := by
  rw [← List.singleton_append, lastDefault?_append]
  by_cases hp : p.name = "default" <;> simp [lastDefault?, hp]

theorem lastDefault?_eq_none_iff {pipes : List Tag.Pipe} :
    lastDefault? pipes = none ↔ ∀ p ∈ pipes, p.name ≠ "default" := by
  simp [lastDefault?]

theorem lastDefault?_eq_some_iff {pipes : List Tag.Pipe} {d : Tag.Pipe} :
    lastDefault? pipes = some d ↔ LastDefault pipes d := by
  constructor
  · intro h
    induction pipes with
    | nil => cases h
    | cons p pipes ih =>
      rw [lastDefault?_cons] at h
      cases hrest : lastDefault? pipes with
      | some e =>
        rw [hrest, Option.some_or] at h
        obtain ⟨hd, before, after, rfl, hafter⟩ := ih (hrest.trans h)
        exact ⟨hd, p :: before, after, rfl, hafter⟩
      | none =>
        rw [hrest, Option.none_or] at h
        split at h
        · rename_i hp
          cases h
          exact ⟨hp, [], pipes, rfl, lastDefault?_eq_none_iff.1 hrest⟩
        · cases h
  · rintro ⟨hd, before, after, rfl, hafter⟩
    rw [lastDefault?_append, lastDefault?_cons, lastDefault?_eq_none_iff.2 hafter, if_pos hd,
      Option.none_or, Option.some_or]

/-- What the formatters of a chain start with. -/
inductive Start (v : Option Json) (pipes : List Tag.Pipe) : Json → Prop where
  /-- The value itself, or null if it is missing. -/
  | own : Json.isBlank v = false ∨ (∀ p ∈ pipes, p.name ≠ "default") → Start v pipes (v.getD .null)
  /-- The argument of the last `default` pipe in the place of an empty value, or null if it has
      none. -/
  | default (d : Tag.Pipe) : Json.isBlank v = true → LastDefault pipes d →
    Start v pipes (d.argument.elim .null .string)

theorem isBlank_getD (v : Option Json) : Json.isBlank (v.getD .null) = Json.isBlank v := by
  cases v <;> rfl

theorem withDefault_of_some {pipes : List Tag.Pipe} {d : Tag.Pipe}
    (h : lastDefault? pipes = some d) (v : Option Json) :
    withDefault pipes (v.getD .null) =
      if Json.isBlank v then d.argument.elim .null .string else v.getD .null := by
  rw [lastDefault?] at h
  rw [withDefault, h]
  simp only [isBlank_getD]

theorem withDefault_of_none {pipes : List Tag.Pipe} (h : lastDefault? pipes = none) (v : Json) :
    withDefault pipes v = v := by
  rw [lastDefault?] at h
  rw [withDefault, h]

/-- A chain starts with one value only. -/
theorem start_iff {v : Option Json} {pipes : List Tag.Pipe} {w : Json} :
    Start v pipes w ↔ w = withDefault pipes (v.getD .null) := by
  constructor
  · intro h
    cases h with
    | own h =>
      cases hlast : lastDefault? pipes with
      | none => rw [withDefault_of_none hlast]
      | some d =>
        -- there is a `default` pipe, so the value is not empty
        have hvalue : Json.isBlank v = false := by
          refine h.resolve_right fun hnone => ?_
          rw [lastDefault?_eq_none_iff.2 hnone] at hlast
          cases hlast
        rw [withDefault_of_some hlast, hvalue, if_neg Bool.false_ne_true]
    | default d hblank hd =>
      rw [withDefault_of_some (lastDefault?_eq_some_iff.2 hd), if_pos hblank]
  · rintro rfl
    cases hlast : lastDefault? pipes with
    | none =>
      rw [withDefault_of_none hlast]
      exact .own (.inr (lastDefault?_eq_none_iff.1 hlast))
    | some d =>
      rw [withDefault_of_some hlast]
      split
      · rename_i hblank
        exact .default d hblank (lastDefault?_eq_some_iff.1 hlast)
      · rename_i hvalue
        exact .own (.inl (Bool.not_eq_true _ ▸ hvalue))

/-! ## What a chain applies -/

/-- A formatter with the argument that it is applied with. -/
structure Step where
  formatter : Formatter
  argument : Option String

/-- The formatter that a pipe applies, if it is known; `default` applies none. -/
def step? (fs : Formatters) (p : Tag.Pipe) : Option Step :=
  if p.name = "default" then none else (fs.get? p.name).map fun f => ⟨f, p.argument⟩

/-- The formatters that a chain applies, in the order of its pipes. -/
def steps (fs : Formatters) (pipes : List Tag.Pipe) : List Step := pipes.filterMap (step? fs)

/-- The text of a value after some steps: the first one gets the value and each other one the text
    of the one before. -/
def textAfter : Json → List Step → String
  | v, [] => v.displayText
  | v, step :: rest => textAfter (.string (step.formatter v step.argument)) rest

section

variable (fs : Formatters)

theorem step?_of_default {p : Tag.Pipe} (h : p.name = "default") : step? fs p = none := if_pos h

theorem step?_of_unknown {p : Tag.Pipe} (h : fs.get? p.name = none) : step? fs p = none := by
  rw [step?, h, Option.map_none, ite_self]

theorem steps_append_cons {l r : List Tag.Pipe} {p : Tag.Pipe} (h : step? fs p = none) :
    steps fs (l ++ p :: r) = steps fs (l ++ r) := by
  rw [steps, steps, List.filterMap_append, List.filterMap_append, List.filterMap_cons_none h]

theorem steps_filter (pipes : List Tag.Pipe) :
    steps fs (pipes.filter fun p => p.name ≠ "default") = steps fs pipes := by
  rw [steps, steps, List.filterMap_filter]
  refine congrArg (List.filterMap · pipes) (funext fun p => ?_)
  by_cases hp : p.name = "default" <;> simp [step?, hp]

/-- Pipes other than `default` are applied as steps. -/
theorem displayText_foldl_applyPipe {pipes : List Tag.Pipe} (h : ∀ p ∈ pipes, p.name ≠ "default")
    (v : Json) : (pipes.foldl (applyPipe fs) v).displayText = textAfter v (steps fs pipes) := by
  induction pipes generalizing v with
  | nil => rfl
  | cons p pipes ih =>
    obtain ⟨hp, hpipes⟩ := List.forall_mem_cons.1 h
    rw [List.foldl_cons, ih hpipes, applyPipe]
    cases hget : fs.get? p.name with
    | none =>
      have hsteps : steps fs (p :: pipes) = steps fs pipes :=
        List.filterMap_cons_none (step?_of_unknown fs hget)
      rw [hsteps]
    | some f =>
      have hstep : step? fs p = some ⟨f, p.argument⟩ := by
        rw [step?, if_neg hp, hget, Option.map_some]
      have hsteps : steps fs (p :: pipes) = ⟨f, p.argument⟩ :: steps fs pipes :=
        List.filterMap_cons_some hstep
      rw [hsteps, textAfter]

/-- **A chain is its start and its steps.** -/
theorem applyPipes_eq (v : Option Json) (pipes : List Tag.Pipe) :
    applyPipes fs v pipes = textAfter (withDefault pipes (v.getD .null)) (steps fs pipes) := by
  have hrest : ∀ p ∈ pipes.filter fun p => p.name ≠ "default", p.name ≠ "default" :=
    fun p hp => of_decide_eq_true (List.mem_filter.1 hp).2
  rw [applyPipes, displayText_foldl_applyPipe fs hrest, steps_filter]

/-- Chains with the same `default` and the same steps are alike. -/
theorem applyPipes_congr {pipes pipes' : List Tag.Pipe}
    (hlast : lastDefault? pipes' = lastDefault? pipes) (hsteps : steps fs pipes' = steps fs pipes)
    (v : Option Json) : applyPipes fs v pipes' = applyPipes fs v pipes := by
  rw [lastDefault?, lastDefault?] at hlast
  rw [applyPipes_eq, applyPipes_eq, hsteps, withDefault, withDefault, hlast]

/-! ## Chains that are alike -/

/-- The second chain is the first one with its last `default` pipe at another place behind the
    other ones, or without a pipe that does not count. -/
inductive Rearranged : List Tag.Pipe → List Tag.Pipe → Prop where
  /-- The last `default` pipe stands elsewhere, but behind the other ones. -/
  | move (before after l r : List Tag.Pipe) {d : Tag.Pipe} : d.name = "default" →
    (∀ p ∈ after, p.name ≠ "default") → (∀ p ∈ r, p.name ≠ "default") → l ++ r = before ++ after →
    Rearranged (before ++ d :: after) (l ++ d :: r)
  /-- A `default` pipe before another one is left out. -/
  | dropDefault (l r : List Tag.Pipe) {p : Tag.Pipe} : p.name = "default" →
    (∃ d ∈ r, d.name = "default") → Rearranged (l ++ p :: r) (l ++ r)
  /-- A pipe with an unknown name is left out. -/
  | dropUnknown (l r : List Tag.Pipe) {p : Tag.Pipe} : p.name ≠ "default" →
    fs.get? p.name = none → Rearranged (l ++ p :: r) (l ++ r)

namespace Rearranged

variable {fs} {pipes pipes' : List Tag.Pipe} (h : Rearranged fs pipes pipes')
include h

theorem lastDefault?_eq : lastDefault? pipes' = lastDefault? pipes := by
  cases h with
  | move before after l r hd hafter hr _ =>
    have hlast {l r : List Tag.Pipe} (hr : ∀ p ∈ r, p.name ≠ "default") :=
      lastDefault?_eq_some_iff.2 ⟨hd, l, r, rfl, hr⟩
    rw [hlast hr, hlast hafter]
  | dropDefault l r _ hd =>
    -- the other one counts in both chains
    have hr : lastDefault? r ≠ none := fun hnone => by
      obtain ⟨d, hd, hname⟩ := hd
      exact lastDefault?_eq_none_iff.1 hnone d hd hname
    obtain ⟨e, he⟩ := Option.ne_none_iff_exists'.1 hr
    rw [lastDefault?_append, lastDefault?_append, lastDefault?_cons, he, Option.some_or,
      Option.some_or, Option.some_or]
  | dropUnknown l r hp _ =>
    rw [lastDefault?_append, lastDefault?_append, lastDefault?_cons, if_neg hp, Option.or_none]

theorem steps_eq : steps fs pipes' = steps fs pipes := by
  cases h with
  | move before after l r hd _ _ hsame =>
    have hnone := step?_of_default fs hd
    rw [steps_append_cons fs hnone, steps_append_cons fs hnone, hsame]
  | dropDefault l r hp _ => rw [steps_append_cons fs (step?_of_default fs hp)]
  | dropUnknown l r _ hunknown => rw [steps_append_cons fs (step?_of_unknown fs hunknown)]

end Rearranged

end

/-- **The normal form of a chain**: it starts with the value or, if that is empty, with the argument
    of its last `default` pipe, goes through its known formatters from left to right, and ends as a
    text.  So the place of the last `default` pipe behind the other ones, earlier ones and unknown
    formatters make no difference, and the argument goes through all other pipes. -/
theorem applyPipes_normal_form (fs : Formatters) (v : Option Json) (pipes : List Tag.Pipe) :
    (∃ start, (∀ w, Start v pipes w ↔ w = start) ∧
      applyPipes fs v pipes = textAfter start (steps fs pipes)) ∧
    (∀ pipes', Rearranged fs pipes pipes' → applyPipes fs v pipes' = applyPipes fs v pipes) ∧
    ∀ d, Json.isBlank v = true → LastDefault pipes d →
      applyPipes fs v pipes =
        applyPipes fs (d.argument.map .string) (pipes.filter fun p => p.name ≠ "default") := by
  refine ⟨⟨_, fun _ => start_iff, applyPipes_eq fs v pipes⟩, fun pipes' h => ?_,
    fun d hblank hd => ?_⟩
  · exact applyPipes_congr fs h.lastDefault?_eq h.steps_eq v
  · have hnone : lastDefault? (pipes.filter fun p => p.name ≠ "default") = none :=
      lastDefault?_eq_none_iff.2 fun p hp => of_decide_eq_true (List.mem_filter.1 hp).2
    rw [applyPipes_eq, applyPipes_eq, steps_filter, withDefault_of_none hnone,
      withDefault_of_some (lastDefault?_eq_some_iff.2 hd), if_pos hblank]
    cases d.argument <;> rfl

/-- The second `default` counts, and its argument goes through the pipes before it too. -/
theorem applyPipes_normal_form_of_two_defaults :
    let mark : Formatter := fun v a => v.displayText ++ a.getD "?"
    let fs : Formatters := [("default", mark), ("mark", mark)]
    let one : Tag.Pipe := ⟨"mark", some "1"⟩
    let first : Tag.Pipe := ⟨"default", some "x"⟩
    let unknown : Tag.Pipe := ⟨"nope", some "2"⟩
    let last : Tag.Pipe := ⟨"default", some "y"⟩
    let pipes := [one, first, unknown, last, ⟨"mark", none⟩]
    (∃ start, (∀ w, Start none pipes w ↔ w = start) ∧
      applyPipes fs none pipes = textAfter start (steps fs pipes)) ∧
    applyPipes fs none pipes = "y1?" ∧
    (Rearranged fs pipes [one, first, unknown, ⟨"mark", none⟩, last] ∧
      Rearranged fs pipes [one, unknown, last, ⟨"mark", none⟩] ∧
      Rearranged fs pipes [one, first, last, ⟨"mark", none⟩]) ∧
    applyPipes fs none [one, first, unknown, ⟨"mark", none⟩, last] = applyPipes fs none pipes ∧
    applyPipes fs none [one, unknown, last, ⟨"mark", none⟩] = applyPipes fs none pipes ∧
    applyPipes fs none [one, first, last, ⟨"mark", none⟩] = applyPipes fs none pipes ∧
    LastDefault pipes last ∧
    applyPipes fs none pipes =
      applyPipes fs (some (.string "y")) [one, unknown, ⟨"mark", none⟩] := by
  intro mark fs one first unknown last pipes
  obtain ⟨hform, halike, hthrough⟩ := applyPipes_normal_form fs none pipes
  have hmove : Rearranged fs pipes [one, first, unknown, ⟨"mark", none⟩, last] :=
    .move [one, first, unknown] [⟨"mark", none⟩] [one, first, unknown, ⟨"mark", none⟩] [] rfl
      (by decide) (by decide) rfl
  have hdefault : Rearranged fs pipes [one, unknown, last, ⟨"mark", none⟩] :=
    .dropDefault [one] [unknown, last, ⟨"mark", none⟩] rfl ⟨last, by decide, rfl⟩
  have hunknown : Rearranged fs pipes [one, first, last, ⟨"mark", none⟩] :=
    .dropUnknown [one, first] [last, ⟨"mark", none⟩] (by decide) rfl
  have hlast : LastDefault pipes last :=
    ⟨rfl, [one, first, unknown], [⟨"mark", none⟩], rfl, by decide⟩
  exact ⟨hform, by decide +kernel, ⟨hmove, hdefault, hunknown⟩, halike _ hmove,
    halike _ hdefault, halike _ hunknown, hlast, hthrough last rfl hlast⟩

end Letterpress.Processor
