/-
  Where the reports of the check point.

  * `Step` is one step into a value with its text, `walk?` goes several steps.  `Spot` is the place of
    a value that the check can look at, with its path as steps and as text; `Spot.text_injective`:
    the text says which spot it is.
  * `Breaks` is what each fault says of a value, on its own.  `Visits` says which spots are looked
    at, and `Share` what the value at a spot contributes to the reports, no more and no less.
    Neither mentions the check.
  * `findings` are all values that the check looks at, with their faults; `structureFaults_eq`: the
    reports are these faults with the texts of the spots.  `share_iff` and `mem_findings_iff`: these
    are the shares of the values at the spots that are visited.
  * `reports_point_at_faults`: each report is of a value that is found where its path says, and that
    breaks the rule by itself, each value that is visited has its share in the reports, and these
    are in the order of the document.
-/
import Letterpress.Proofs.Text.Cutting
import Letterpress.Proofs.Validation.Format

namespace Letterpress.Validation

/-! ## Paths -/

/-- One step into a value. -/
inductive Step where
  | member (key : String)
  | item (index : Nat)
deriving DecidableEq

namespace Step

/-- What the step adds to the text of a path. -/
def text : Step → String
  | member key => "." ++ key
  | item index => "[" ++ toString index ++ "]"

/-- The value that the step leads to. -/
def take? : Step → Json → Option Json
  | member key, v => v.members?.bind fun ms => ms.get? key
  | item index, v => v.items?.bind fun items => items[index]?

end Step

/-- The value that several steps lead to, one after the other. -/
def walk? (steps : List Step) (v : Json) : Option Json :=
  steps.foldlM (fun v step => step.take? v) v

/-- The place of a value that the check can look at. -/
inductive Spot where
  /-- The list of blocks itself. -/
  | list
  | top (index : Nat)
  /-- A block in a column of a block at the top. -/
  | nested (index column block : Nat)
deriving DecidableEq

namespace Spot

/-- The way from the list of blocks to the spot. -/
def steps : Spot → List Step
  | list => []
  | top i => [.item i]
  | nested i j k =>
    [.item i, .member "props", .member "columns", .item j, .member "blocks", .item k]

/-- The path of the spot. -/
def text (p : Spot) : String := "blocks" ++ String.join (p.steps.map Step.text)

/-- The indices on the way, which say where in the document the spot is. -/
def indices : Spot → List Nat
  | list => []
  | top i => [i]
  | nested i j k => [i, j, k]

/-- The value at the first spot begins before that at the second one in the document. -/
def Before (p q : Spot) : Prop := p.indices < q.indices

end Spot

/-! ### The text of a path -/

/-- What stands before the next bracket can be read off. -/
theorem digits_bracket_inj {i i' : Nat} {rest rest' : List Char}
    (h : Nat.toDigits 10 i ++ ']' :: rest = Nat.toDigits 10 i' ++ ']' :: rest') :
    i = i' ∧ rest = rest' := by
  have hnone : ∀ n, ']' ∉ Nat.toDigits 10 n := by
    intro n hmem
    have hdigit := Nat.isDigit_of_mem_toDigits (by decide) (by decide) hmem
    cases hdigit
  have hcut := congrArg (Text.splitOnce ']') h
  rw [Text.splitOnce_append_cons (hnone i), Text.splitOnce_append_cons (hnone i')] at hcut
  simp only [Option.some.injEq, Prod.mk.injEq] at hcut
  obtain ⟨hdigits, hrest⟩ := hcut
  have hvalue := congrArg (fun digits => Nat.ofDigitChars 10 digits 0) hdigits
  exact ⟨by simpa using hvalue, hrest⟩

namespace Spot

/-- The path of a block at the top, as the check writes it. -/
theorem text_top (i : Nat) : (top i).text = "blocks" ++ "[" ++ toString i ++ "]" := by
  simp [text, steps, Step.text, ← String.toList_inj]

/-- The path of a block in a column, as the check writes it after that of the row. -/
theorem text_nested (i j k : Nat) : (nested i j k).text =
    (top i).text ++ ".props.columns" ++ "[" ++ toString j ++ "]" ++ ".blocks" ++ "[" ++ toString k ++
      "]" := by
  simp [text, steps, Step.text, ← String.toList_inj]

theorem toList_text_top (i : Nat) :
    (top i).text.toList = "blocks[".toList ++ (Nat.toDigits 10 i ++ ']' :: []) := by
  simp [text, steps, Step.text, toString]

theorem toList_text_nested (i j k : Nat) : (nested i j k).text.toList =
    "blocks[".toList ++ (Nat.toDigits 10 i ++ ']' :: (".props.columns[".toList ++
      (Nat.toDigits 10 j ++ ']' :: (".blocks[".toList ++ (Nat.toDigits 10 k ++ ']' :: []))))) := by
  simp [text, steps, Step.text, toString]

/-- **The text of a path says which spot it is.** -/
theorem text_injective : Function.Injective text := by
  intro p q htext
  have hlist : list.text.toList = "blocks".toList := by decide
  have h := congrArg String.toList htext
  cases p <;> cases q <;>
    simp only [hlist, toList_text_top, toList_text_nested, List.append_cancel_left_eq] at h
  case list.list => rfl
  case list.top => simp at h
  case list.nested => simp at h
  case top.list => simp at h
  case nested.list => simp at h
  case top.top i i' => rw [(digits_bracket_inj h).1]
  case top.nested => simpa using (digits_bracket_inj h).2
  case nested.top => simpa using (digits_bracket_inj h).2
  case nested.nested i j k i' j' k' =>
    obtain ⟨hi, hcolumn⟩ := digits_bracket_inj h
    obtain ⟨hj, hblock⟩ := digits_bracket_inj (List.append_cancel_left hcolumn)
    obtain ⟨hk, -⟩ := digits_bracket_inj (List.append_cancel_left hblock)
    rw [hi, hj, hk]

example : (nested 0 1 2).text = "blocks[0].props.columns[1].blocks[2]" := by decide

end Spot

/-! ## Rules -/

/-- The value is an object with a member. -/
def HasMember (v : Json) (key : String) (u : Json) : Prop :=
  ∃ ms : Members, v = .object ms ∧ ms.get? key = some u

instance (props : Members) (prop : String) : Decidable (Filled props prop) :=
  decidable_of_iff _ isBlank_eq_false_iff

/-- What a fault says of a value: it breaks a rule, whatever stands around it. -/
def Breaks (has : Kind → Bool) (v : Json) : Fault → Prop
  | .blocksNotArray => ∀ items, v ≠ .array items
  | .blockNotObject => ∀ ms, v ≠ .object ms
  | .invalidId => ∀ id, ¬ HasMember v "id" (.string id)
  | .invalidUuid => ∃ id, HasMember v "id" (.string id) ∧ isUuid id = false
  | .invalidType => ∀ type, ¬ HasType v type
  | .unregisteredType kind => ∃ type, HasType v type ∧ kind = Kind.ofName type ∧ has kind = false
  | .invalidProps => ∀ props, ¬ HasMember v "props" (.object props)
  | .missingProp kind prop => ∃ props, HasType v kind.name ∧ HasMember v "props" (.object props) ∧
    (kind = .button ∧ prop ∈ ["text", "href"] ∨ kind = .image ∧ prop = "src") ∧
      ¬ Filled props prop
  | .nestedRow => HasType v "row"
  | .tooDeep _ => False

/-- A fault that can be reported at a spot: only the list itself is reported as no list, and only
    what stands in a column as a row in a column. -/
def Spot.Takes (p : Spot) (fault : Fault) : Prop :=
  (fault = .blocksNotArray ↔ p = .list) ∧ (fault = .nestedRow → ∃ i j k, p = .nested i j k)

/-- The rules in the order in which they are looked at. -/
def Fault.rank : Fault → Nat
  | .blocksNotArray => 0
  | .blockNotObject => 1
  | .invalidId => 2
  | .invalidUuid => 3
  | .invalidType => 4
  | .unregisteredType _ => 5
  | .nestedRow => 6
  | .invalidProps => 7
  | .missingProp _ _ => 8
  | .tooDeep _ => 9

/-- The value at a spot breaks a rule that can be reported there, and that hides what is in it. -/
structure Hides (has : Kind → Bool) (p : Spot) (v : Json) (fault : Fault) : Prop where
  breaks : Breaks has v fault
  takes : p.Takes fault
  notMissing : ∀ kind prop, fault ≠ .missingProp kind prop

/-- The rule is the first one of those that hide what is in the value. -/
structure HidesFirst (has : Kind → Bool) (p : Spot) (v : Json) (fault : Fault) : Prop where
  hides : Hides has p v fault
  least : ∀ other, Hides has p v other → fault.rank ≤ other.rank

/-- Nothing hides what is in the value. -/
def Shown (has : Kind → Bool) (p : Spot) (v : Json) : Prop := ∀ fault, ¬ Hides has p v fault

/-- What the value at a spot contributes: the first fault that hides what is in it, or else, if it
    is a button or an image, one fault for each required prop that is not filled. -/
inductive Share (has : Kind → Bool) (p : Spot) (v : Json) : List Fault → Prop
  | hidden {fault : Fault} (h : HidesFirst has p v fault) : Share has p v [fault]
  | button {props : Members} (hshown : Shown has p v) (htype : HasType v "button")
      (hprops : HasMember v "props" (.object props)) : Share has p v
        ((["text", "href"].filter fun prop => ¬ Filled props prop).map (.missingProp .button))
  | image {props : Members} (hshown : Shown has p v) (htype : HasType v "image")
      (hprops : HasMember v "props" (.object props)) : Share has p v
        ((["src"].filter fun prop => ¬ Filled props prop).map (.missingProp .image))
  | other (hshown : Shown has p v) (hbutton : ¬ HasType v "button") (himage : ¬ HasType v "image") :
      Share has p v []

/-- The spots that are looked at in a value, with the values there: the value itself if it is no
    list, all items of a list, and all blocks in the columns of a row that nothing hides. -/
inductive Visits (has : Kind → Bool) (v : Json) : Spot → Json → Prop
  | list (h : ∀ items, v ≠ .array items) : Visits has v .list v
  | top {i : Nat} {w : Json} (h : walk? (Spot.top i).steps v = some w) : Visits has v (.top i) w
  | nested {i j k : Nat} {row w : Json} (hrow : walk? (Spot.top i).steps v = some row)
      (htype : HasType row "row") (hshown : Shown has (.top i) row)
      (h : walk? (Spot.nested i j k).steps v = some w) : Visits has v (.nested i j k) w

/-! ## What the check looks at -/

variable {has : Kind → Bool}

/-- The faults that are reported of a value itself, and not of what is in it. -/
def ownFaults (has : Kind → Bool) (nested : Bool) (v : Json) : List Fault :=
  match blockHead has nested v with
  | .error fault => [fault]
  | .ok (kind, props) =>
    ((requiredProps kind).filter fun prop => Json.isBlank (props.get? prop)).map (.missingProp kind)

/-- The faults that are reported of a value at a spot. -/
def faultsAt (has : Kind → Bool) : Spot → Json → List Fault
  | .list, v => if v.items?.isSome then [] else [.blocksNotArray]
  | .top _, v => ownFaults has false v
  | .nested _ _ _, v => ownFaults has true v

/-- The columns that the check goes into. -/
def columnsOf (has : Kind → Bool) (v : Json) : List Json :=
  match blockHead has false v with
  | .error _ => []
  | .ok (kind, props) =>
    if kind.isRow then ((props.get? "columns").bind Json.items?).getD [] else []

/-- A spot that the check looks at, with the faults of the value there. -/
structure Finding where
  spot : Spot
  faults : List Fault

/-- The reports of a finding. -/
def Finding.reports (g : Finding) : List Report := g.faults.map (Report.mk g.spot.text)

/-- What is found in a column. -/
def columnFindings (has : Kind → Bool) (i : Nat) (x : Json × Nat) : List Finding :=
  ((itemsOf? x.1 "blocks").getD []).zipIdx.map fun y => ⟨.nested i x.2 y.2, ownFaults has true y.1⟩

/-- What is found of a block at the top and of those in its columns. -/
def topFindings (has : Kind → Bool) (x : Json × Nat) : List Finding :=
  ⟨.top x.2, ownFaults has false x.1⟩ ::
    (columnsOf has x.1).zipIdx.flatMap (columnFindings has x.2)

/-- All spots that the check looks at. -/
def findings (has : Kind → Bool) (v : Json) : List Finding :=
  match v.items? with
  | none => [⟨.list, [.blocksNotArray]⟩]
  | some items => items.zipIdx.flatMap (topFindings has)

/-- The reports of a list are those of its items, each with its index. -/
theorem reportsOf_eq_flatMap {check : String → Json → List Report} {path : String}
    {items : List Json} {f : Json × Nat → List Report}
    (h : ∀ x, check (path ++ "[" ++ toString x.2 ++ "]") x.1 = f x) :
    reportsOf check path items = items.zipIdx.flatMap f := by
  rw [reportsOf, List.mapIdx_eq_zipIdx_map, List.flatMap_def]
  exact congrArg List.flatten (List.map_congr_left fun x _ => h x)

/-- Of a block in a column only its own faults are reported: as no row is allowed there, nothing is
    in it. -/
theorem blockReports_nested_eq (levels : Nat) (path : String) (v : Json) :
    blockReports has (levels + 1) true path v = (ownFaults has true v).map (Report.mk path) := by
  rw [blockReports, ownFaults]
  cases hhead : blockHead has true v with
  | error fault => rfl
  | ok head =>
    obtain ⟨-, -, -, -, -, -, hrow⟩ := blockHead_eq_ok_iff.1 hhead
    simp [hrow rfl, reportsOf]

/-- Of a block at the top its own faults are reported, and those of the blocks in its columns. -/
theorem blockReports_top_eq (levels : Nat) (x : Json × Nat) :
    blockReports has (levels + 2) false (Spot.top x.2).text x.1 =
      (topFindings has x).flatMap Finding.reports := by
  have hcolumn : ∀ i (y : Json × Nat),
      reportsOf (blockReports has (levels + 1) true)
          ((Spot.top i).text ++ ".props.columns" ++ "[" ++ toString y.2 ++ "]" ++ ".blocks")
          ((itemsOf? y.1 "blocks").getD []) =
        (columnFindings has i y).flatMap Finding.reports := by
    intro i y
    rw [columnFindings, List.flatMap_map]
    refine reportsOf_eq_flatMap fun z => ?_
    rw [blockReports_nested_eq, ← Spot.text_nested, Finding.reports]
  rw [topFindings, List.flatMap_cons, List.flatMap_assoc, Finding.reports, blockReports]
  rw [ownFaults, columnsOf]
  cases hhead : blockHead has false x.1 with
  | error fault => simp
  | ok head =>
    dsimp only
    rw [List.map_map, reportsOf_eq_flatMap fun y => hcolumn x.2 y]
    rfl

/-- **The reports are the findings**, with the texts of the spots as paths. -/
theorem structureFaults_eq (v : Json) :
    structureFaults has v = (findings has v).flatMap Finding.reports := by
  rw [structureFaults, findings]
  cases v.items? with
  | none => simp [Finding.reports, Spot.text, Spot.steps]
  | some items =>
    dsimp only
    rw [List.flatMap_assoc]
    refine reportsOf_eq_flatMap fun x => ?_
    rw [← blockReports_top_eq 2 x, Spot.text_top]
    rfl

/-! ### The order of the document -/

/-- Items that are looked at one after the other, each with what is before the next one. -/
theorem pairwise_flatMap_zipIdx {α β : Type} {R : β → β → Prop} {f : α × Nat → List β} {l : List α}
    (hwithin : ∀ x, (f x).Pairwise R)
    (hacross : ∀ x y, x.2 < y.2 → ∀ a ∈ f x, ∀ b ∈ f y, R a b) :
    (l.zipIdx.flatMap f).Pairwise R := by
  have hindices : l.zipIdx.Pairwise fun x y => x.2 < y.2 := by
    rw [← List.pairwise_map (f := Prod.snd), List.zipIdx_map_snd]
    exact List.pairwise_lt_range'
  refine List.pairwise_flatMap.2 ⟨fun x _ => hwithin x, ?_⟩
  exact hindices.imp fun h => hacross _ _ h

theorem columnFindings_before (i : Nat) (x : Json × Nat) :
    (columnFindings has i x).Pairwise fun g h => g.spot.Before h.spot := by
  rw [columnFindings, ← List.flatMap_pure_eq_map]
  refine pairwise_flatMap_zipIdx (fun y => List.pairwise_singleton _ _) fun y z hyz g hg h hh => ?_
  obtain rfl := List.mem_singleton.mp hg
  obtain rfl := List.mem_singleton.mp hh
  simp [Spot.Before, Spot.indices, List.cons_lt_cons_iff, hyz]

theorem spot_of_mem_columnFindings {i : Nat} {x : Json × Nat} {g : Finding}
    (h : g ∈ columnFindings has i x) : ∃ k, g.spot = .nested i x.2 k := by
  obtain ⟨y, -, rfl⟩ := List.mem_map.mp h
  exact ⟨y.2, rfl⟩

theorem topFindings_before (x : Json × Nat) :
    (topFindings has x).Pairwise fun g h => g.spot.Before h.spot := by
  rw [topFindings]
  refine List.pairwise_cons.2 ⟨fun g hg => ?_, ?_⟩
  · obtain ⟨y, -, hy⟩ := List.mem_flatMap.mp hg
    obtain ⟨k, hk⟩ := spot_of_mem_columnFindings hy
    simp [hk, Spot.Before, Spot.indices]
  · refine pairwise_flatMap_zipIdx (fun y => columnFindings_before x.2 y) ?_
    intro y z hyz g hg h hh
    obtain ⟨k, hk⟩ := spot_of_mem_columnFindings hg
    obtain ⟨k', hk'⟩ := spot_of_mem_columnFindings hh
    simp [hk, hk', Spot.Before, Spot.indices, List.cons_lt_cons_iff, hyz]

theorem indices_of_mem_topFindings {x : Json × Nat} {g : Finding} (h : g ∈ topFindings has x) :
    ∃ rest, g.spot.indices = x.2 :: rest := by
  rcases List.mem_cons.mp h with rfl | h
  · exact ⟨[], rfl⟩
  · obtain ⟨y, -, hy⟩ := List.mem_flatMap.mp h
    obtain ⟨k, hk⟩ := spot_of_mem_columnFindings hy
    exact ⟨[y.2, k], by rw [hk, Spot.indices]⟩

/-- The check looks at the spots in the order of the document, and at each of them once. -/
theorem findings_before (v : Json) :
    (findings has v).Pairwise fun g h => g.spot.Before h.spot := by
  rw [findings]
  cases v.items? with
  | none => exact List.pairwise_singleton _ _
  | some items =>
    refine pairwise_flatMap_zipIdx (fun x => topFindings_before x) ?_
    intro x y hxy g hg h hh
    obtain ⟨rest, hrest⟩ := indices_of_mem_topFindings hg
    obtain ⟨rest', hrest'⟩ := indices_of_mem_topFindings hh
    simp [Spot.Before, hrest, hrest', List.cons_lt_cons_iff, hxy]

/-! ## Shares -/

section

variable {p : Spot} {v : Json} {fault fault' : Fault} {kind : Kind} {props : Members}

/-- The spot is that of a block in a column. -/
def Spot.isNested : Spot → Bool
  | nested _ _ _ => true
  | _ => false

theorem Spot.eq_nested_of_isNested (h : p.isNested = true) : ∃ i j k, p = .nested i j k := by
  cases p with
  | nested i j k => exact ⟨i, j, k, rfl⟩
  | _ => cases h

theorem HasType.unique {type type' : String} (h : HasType v type) (h' : HasType v type') :
    type = type' := by
  obtain ⟨ms, rfl, h⟩ := h
  obtain ⟨_, ⟨⟩, h'⟩ := h'
  cases h.symm.trans h'
  rfl

theorem HasMember.unique {key : String} {u u' : Json} (h : HasMember v key u)
    (h' : HasMember v key u') : u = u' := by
  obtain ⟨ms, rfl, h⟩ := h
  obtain ⟨_, ⟨⟩, h'⟩ := h'
  exact Option.some.inj (h.symm.trans h')

theorem Hides.of_head (hp : p ≠ .list) (hbreaks : Breaks has v fault)
    (hlist : fault ≠ .blocksNotArray) (hrow : fault = .nestedRow → p.isNested = true)
    (hmissing : ∀ kind prop, fault ≠ .missingProp kind prop) : Hides has p v fault where
  breaks := hbreaks
  takes := ⟨iff_of_false hlist hp, fun h => Spot.eq_nested_of_isNested (hrow h)⟩
  notMissing := hmissing

/-- There is one rule that comes first. -/
theorem HidesFirst.unique (h : HidesFirst has p v fault) (h' : HidesFirst has p v fault') :
    fault = fault' := by
  have hrank : fault.rank = fault'.rank := Nat.le_antisymm (h.least _ h'.hides) (h'.least _ h.hides)
  have hbreaks := h.hides.breaks
  have hbreaks' := h'.hides.breaks
  cases fault <;> cases fault' <;> first | rfl | (simp [Fault.rank] at hrank; done) | skip
  case unregisteredType.unregisteredType =>
    obtain ⟨type, htype, rfl, -⟩ := hbreaks
    obtain ⟨type', htype', rfl, -⟩ := hbreaks'
    rw [htype.unique htype']
  case missingProp.missingProp => exact absurd rfl (h.hides.notMissing _ _)
  case tooDeep.tooDeep => exact absurd hbreaks id

/-- None of the rules of a lower rank hides what is in the value. -/
def Passed (has : Kind → Bool) (p : Spot) (v : Json) (n : Nat) : Prop :=
  ∀ fault, Hides has p v fault → n ≤ fault.rank

namespace Passed

variable {n : Nat} {type id : String}

theorem next (h : Passed has p v n) (hnot : ∀ fault, fault.rank = n → ¬ Hides has p v fault) :
    Passed has p v (n + 1) :=
  fun fault hf => Nat.lt_of_le_of_ne (h fault hf) fun heq => hnot fault heq.symm hf

theorem object (hp : p ≠ .list) (ms : Members) : Passed has p (.object ms) 2 := by
  have hblock : Passed has p (.object ms) 1 := by
    refine next (fun _ _ => Nat.zero_le _) fun fault hrank hf => ?_
    cases fault <;> simp [Fault.rank] at hrank
    exact hp (hf.takes.1.1 rfl)
  refine hblock.next fun fault hrank hf => ?_
  cases fault <;> simp [Fault.rank] at hrank
  exact hf.breaks ms rfl

theorem identified (h : Passed has p v 2) (hid : HasMember v "id" (.string id)) :
    Passed has p v 3 := by
  refine h.next fun fault hrank hf => ?_
  cases fault <;> simp [Fault.rank] at hrank
  exact hf.breaks id hid

theorem unique (h : Passed has p v 3) (hid : HasMember v "id" (.string id))
    (huuid : isUuid id = true) : Passed has p v 4 := by
  refine h.next fun fault hrank hf => ?_
  cases fault <;> simp [Fault.rank] at hrank
  obtain ⟨id', hid', huuid'⟩ := hf.breaks
  cases hid.unique hid'
  exact Bool.false_ne_true (huuid'.symm.trans huuid)

theorem typed (h : Passed has p v 4) (htype : HasType v type) : Passed has p v 5 := by
  refine h.next fun fault hrank hf => ?_
  cases fault <;> simp [Fault.rank] at hrank
  exact hf.breaks type htype

theorem registered (h : Passed has p v 5) (htype : HasType v type)
    (hhas : has (Kind.ofName type) = true) : Passed has p v 6 := by
  refine h.next fun fault hrank hf => ?_
  cases fault <;> simp [Fault.rank] at hrank
  obtain ⟨type', htype', rfl, hhas'⟩ := hf.breaks
  cases htype.unique htype'
  exact Bool.false_ne_true (hhas'.symm.trans hhas)

theorem flat (h : Passed has p v 6) (htype : HasType v type)
    (hrow : p.isNested = true → (Kind.ofName type).isRow = false) : Passed has p v 7 := by
  refine h.next fun fault hrank hf => ?_
  cases fault <;> simp [Fault.rank] at hrank
  obtain ⟨i, j, k, rfl⟩ := hf.takes.2 rfl
  obtain rfl := htype.unique hf.breaks
  cases hrow rfl

theorem shown (h : Passed has p v 7) (hprops : HasMember v "props" (.object props)) :
    Shown has p v := by
  intro fault hf
  have hrank := h fault hf
  cases fault with
  | invalidProps => exact hf.breaks props hprops
  | missingProp kind prop => exact hf.notMissing kind prop rfl
  | tooDeep most => exact hf.breaks
  | _ => simp [Fault.rank] at hrank

end Passed

/-- A head that is refused is refused for the first rule that it breaks. -/
theorem hidesFirst_of_blockHead (hp : p ≠ .list) (h : blockHead has p.isNested v = .error fault) :
    HidesFirst has p v fault := by
  have htext : ∀ {ms : Members} {key : String}, (ms.get? key).bind Json.text? = none →
      ∀ s, ¬ HasMember (.object ms) key (.string s) := by
    rintro ms key hnone s ⟨_, ⟨⟩, hget⟩
    rw [hget] at hnone
    cases hnone
  -- the steps of the check, one after the other; each of them ends with a fault or goes on
  unfold blockHead at h
  rcases hms : v.members? with _ | ms <;> rw [hms] at h
  · cases h
    have hbreaks : ∀ ms, v ≠ .object ms := by
      rintro ms rfl
      cases hms
    refine ⟨.of_head hp hbreaks nofun nofun nofun, fun other hother => ?_⟩
    cases other with
    | blocksNotArray => exact absurd (hother.takes.1.1 rfl) hp
    | _ => simp [Fault.rank]
  obtain rfl := Json.members?_eq_some hms
  have hobject : Passed has p (.object ms) 2 := .object hp ms
  dsimp only at h
  rcases hid : (ms.get? "id").bind Json.text? with _ | id <;> rw [hid] at h
  · cases h
    exact ⟨.of_head hp (htext hid) nofun nofun nofun, hobject⟩
  obtain ⟨idValue, hget, hidText⟩ := Option.bind_eq_some_iff.1 hid
  obtain rfl := Json.text?_eq_some hidText
  have hmember : HasMember (.object ms) "id" (.string id) := ⟨ms, rfl, hget⟩
  have hidentified := hobject.identified hmember
  dsimp only at h
  cases huuid : isUuid id <;> rw [huuid] at h
  · cases h
    exact ⟨.of_head hp ⟨id, hmember, huuid⟩ nofun nofun nofun, hidentified⟩
  have hunique := hidentified.unique hmember huuid
  rcases hkind : (ms.get? "type").bind Kind.ofJson? with _ | kind <;> rw [hkind] at h
  · cases h
    refine ⟨.of_head hp ?_ nofun nofun nofun, hunique⟩
    rintro type ⟨_, ⟨⟩, htype⟩
    rw [htype] at hkind
    cases hkind
  obtain ⟨typeValue, hget, hname⟩ := Option.bind_eq_some_iff.1 hkind
  obtain ⟨type, htypeText, rfl⟩ := Option.map_eq_some_iff.1 hname
  obtain rfl := Json.text?_eq_some htypeText
  have htype : HasType (.object ms) type := ⟨ms, rfl, hget⟩
  have htyped := hunique.typed htype
  dsimp only [Bool.not_true, Bool.false_eq_true, if_false] at h
  cases hhas : has (Kind.ofName type) <;> rw [hhas] at h
  · cases h
    exact ⟨.of_head hp ⟨type, htype, rfl, hhas⟩ nofun nofun nofun, htyped⟩
  have hregistered := htyped.registered htype hhas
  cases hrow : p.isNested && (Kind.ofName type).isRow <;> rw [hrow] at h
  case true =>
    cases h
    obtain ⟨hnested, hrow⟩ := Bool.and_eq_true_iff.mp hrow
    obtain rfl := isRow_ofName_iff.mp hrow
    exact ⟨.of_head hp htype nofun (fun _ => hnested) nofun, hregistered⟩
  have hflat := hregistered.flat htype fun hnested => by rwa [hnested, Bool.true_and] at hrow
  rcases hprops : (ms.get? "props").bind Json.members? with _ | props <;> rw [hprops] at h
  · cases h
    refine ⟨.of_head hp ?_ nofun nofun nofun, hflat⟩
    rintro props ⟨_, ⟨⟩, hget⟩
    rw [hget] at hprops
    cases hprops
  · cases h

theorem hasType_of_blockHead {nested : Bool} (h : blockHead has nested v = .ok (kind, props)) :
    HasType v kind.name ∧ HasMember v "props" (.object props) := by
  obtain ⟨ms, rfl, -, ⟨type, htype, rfl⟩, hprops, -⟩ := blockHead_eq_ok_iff.1 h
  rw [Kind.name_ofName]
  exact ⟨⟨ms, rfl, htype⟩, ms, rfl, hprops⟩

/-- A head that is not refused breaks no rule. -/
theorem shown_of_blockHead (hp : p ≠ .list) (h : blockHead has p.isNested v = .ok (kind, props)) :
    Shown has p v := by
  obtain ⟨ms, rfl, ⟨id, hid, huuid⟩, ⟨type, hget, rfl⟩, hprops, hhas, hflat⟩ :=
    blockHead_eq_ok_iff.1 h
  have hmember : HasMember (.object ms) "id" (.string id) := ⟨ms, rfl, hid⟩
  have htype : HasType (.object ms) type := ⟨ms, rfl, hget⟩
  have hobject : Passed has p (.object ms) 2 := .object hp ms
  have htyped := ((hobject.identified hmember).unique hmember huuid).typed htype
  exact ((htyped.registered htype hhas).flat htype hflat).shown ⟨ms, rfl, hprops⟩

/-- A value of a type in which nothing is hidden has a sound head. -/
theorem exists_blockHead_of_shown {type : String} (hshown : Shown has p v)
    (htype : HasType v type) : p ≠ .list ∧ ∃ props,
      blockHead has p.isNested v = .ok (Kind.ofName type, props) ∧
        HasMember v "props" (.object props) := by
  have hp : p ≠ .list := by
    rintro rfl
    obtain ⟨ms, rfl, -⟩ := htype
    exact hshown .blocksNotArray ⟨nofun, ⟨iff_of_true rfl rfl, nofun⟩, nofun⟩
  refine ⟨hp, ?_⟩
  cases hhead : blockHead has p.isNested v with
  | error fault => exact absurd (hidesFirst_of_blockHead hp hhead).hides (hshown fault)
  | ok head =>
    obtain ⟨kind, props⟩ := head
    obtain ⟨-, hprops⟩ := hasType_of_blockHead hhead
    obtain ⟨ms, rfl, -, ⟨name, hname, rfl⟩, -⟩ := blockHead_eq_ok_iff.1 hhead
    cases htype.unique ⟨ms, rfl, hname⟩
    exact ⟨props, rfl, hprops⟩

/-- What is blank is not filled. -/
theorem filter_isBlank (props : Members) (required : List String) :
    (required.filter fun prop => Json.isBlank (props.get? prop)) =
      required.filter fun prop => ¬ Filled props prop := by
  refine congrArg (List.filter · required) (funext fun prop => ?_)
  rw [Bool.eq_iff_iff, decide_eq_true_iff, ← isBlank_eq_false_iff, Bool.not_eq_false]

theorem faultsAt_eq (hp : p ≠ .list) : faultsAt has p v = ownFaults has p.isNested v := by
  cases p with
  | list => exact absurd rfl hp
  | top | nested => rfl

theorem faultsAt_of_blockHead (hp : p ≠ .list)
    (h : blockHead has p.isNested v = .ok (kind, props)) : faultsAt has p v =
      ((requiredProps kind).filter fun prop => ¬ Filled props prop).map (.missingProp kind) := by
  rw [faultsAt_eq hp, ownFaults, h, ← filter_isBlank]

theorem requiredProps_eq_nil (hbutton : kind ≠ .button) (himage : kind ≠ .image) :
    requiredProps kind = [] := by
  cases kind with
  | button => exact absurd rfl hbutton
  | image => exact absurd rfl himage
  | _ => rfl

/-- What is reported of a value is its share. -/
theorem share_faultsAt (has : Kind → Bool) (p : Spot) (v : Json) :
    Share has p v (faultsAt has p v) := by
  by_cases hp : p = .list
  · subst hp
    rw [faultsAt]
    cases hitems : v.items? with
    | none =>
      have hbreaks : ∀ items, v ≠ .array items := by
        rintro items rfl
        cases hitems
      exact .hidden ⟨⟨hbreaks, ⟨iff_of_true rfl rfl, nofun⟩, nofun⟩, fun _ _ => Nat.zero_le _⟩
    | some items =>
      obtain rfl := Json.items?_eq_some hitems
      refine .other (fun fault hf => ?_) (by rintro ⟨_, ⟨⟩, -⟩) (by rintro ⟨_, ⟨⟩, -⟩)
      obtain rfl := hf.takes.1.2 rfl
      exact hf.breaks items rfl
  · cases hhead : blockHead has p.isNested v with
    | error fault =>
      rw [faultsAt_eq hp, ownFaults, hhead]
      exact .hidden (hidesFirst_of_blockHead hp hhead)
    | ok head =>
      obtain ⟨kind, props⟩ := head
      have hshown := shown_of_blockHead hp hhead
      obtain ⟨htype, hprops⟩ := hasType_of_blockHead hhead
      have hkind {type : String} (h : HasType v type) : kind = Kind.ofName type := by
        obtain ⟨-, props', hhead', -⟩ := exists_blockHead_of_shown hshown h
        cases hhead.symm.trans hhead'
        rfl
      rw [faultsAt_of_blockHead hp hhead]
      by_cases hbutton : kind = .button
      · subst hbutton
        exact .button hshown htype hprops
      by_cases himage : kind = .image
      · subst himage
        exact .image hshown htype hprops
      rw [requiredProps_eq_nil hbutton himage]
      exact .other hshown (fun h => hbutton ((hkind h).trans (by decide)))
        fun h => himage ((hkind h).trans (by decide))

/-- A value has one share. -/
theorem Share.eq_faultsAt {faults : List Fault} (h : Share has p v faults) :
    faults = faultsAt has p v := by
  have hrequired {type : String} {kind : Kind} (hofName : Kind.ofName type = kind)
      (hshown : Shown has p v) (htype : HasType v type) {props : Members}
      (hprops : HasMember v "props" (.object props)) : faultsAt has p v =
        ((requiredProps kind).filter fun prop => ¬ Filled props prop).map (.missingProp kind) := by
    obtain ⟨hp, props', hhead, hprops'⟩ := exists_blockHead_of_shown hshown htype
    cases hprops.unique hprops'
    rw [hofName] at hhead
    exact faultsAt_of_blockHead hp hhead
  cases h with
  | hidden hfirst =>
    -- the faults are a share as well, and the first rule is one
    have hshare := share_faultsAt has p v
    generalize faultsAt has p v = faults at hshare
    cases hshare with
    | hidden hfirst' => rw [hfirst.unique hfirst']
    | button hshown | image hshown | other hshown => exact absurd hfirst.hides (hshown _)
  | button hshown htype hprops => exact (hrequired (by decide) hshown htype hprops).symm
  | image hshown htype hprops => exact (hrequired (by decide) hshown htype hprops).symm
  | other hshown hbutton himage =>
    have hshare := share_faultsAt has p v
    generalize faultsAt has p v = faults at hshare
    cases hshare with
    | hidden hfirst => exact absurd hfirst.hides (hshown _)
    | button _ htype => exact absurd htype hbutton
    | image _ htype => exact absurd htype himage
    | other => rfl

/-- **What is reported of a value is its share**, and nothing else is. -/
theorem share_iff {faults : List Fault} : Share has p v faults ↔ faults = faultsAt has p v := by
  constructor
  · exact Share.eq_faultsAt
  · rintro rfl
    exact share_faultsAt has p v

/-- The faults of a share are true of the value, and can be reported at the spot. -/
theorem Share.sound {faults : List Fault} (h : Share has p v faults) :
    ∀ fault ∈ faults, Breaks has v fault ∧ p.Takes fault := by
  intro fault hfault
  cases h with
  | hidden hfirst =>
    obtain rfl := List.mem_singleton.mp hfault
    exact ⟨hfirst.hides.breaks, hfirst.hides.takes⟩
  | button hshown htype hprops =>
    obtain ⟨prop, hprop, rfl⟩ := List.mem_map.mp hfault
    obtain ⟨hmem, hfilled⟩ := List.mem_filter.mp hprop
    have hp := (exists_blockHead_of_shown hshown htype).1
    exact ⟨⟨_, htype, hprops, .inl ⟨rfl, hmem⟩, of_decide_eq_true hfilled⟩,
      iff_of_false nofun hp, nofun⟩
  | image hshown htype hprops =>
    obtain ⟨prop, hprop, rfl⟩ := List.mem_map.mp hfault
    obtain ⟨hmem, hfilled⟩ := List.mem_filter.mp hprop
    have hp := (exists_blockHead_of_shown hshown htype).1
    exact ⟨⟨_, htype, hprops, .inr ⟨rfl, List.mem_singleton.mp hmem⟩,
      of_decide_eq_true hfilled⟩, iff_of_false nofun hp, nofun⟩
  | other => cases hfault

end

/-! ## Visits -/

theorem walk?_append (steps more : List Step) (v : Json) :
    walk? (steps ++ more) v = (walk? steps v).bind (walk? more) :=
  List.foldlM_append

theorem mem_zipIdx_items_iff {field : Option Json} {x : Json × Nat} :
    x ∈ ((field.bind Json.items?).getD []).zipIdx ↔
      (field.bind fun u => (Step.item x.2).take? u) = some x.1 := by
  rcases field with _ | u
  · simp
  · cases u with
    | array items => exact List.mem_zipIdx_iff_getElem?
    | _ => simp [Json.items?, Step.take?]

theorem walk?_item {v : Json} {x : Json × Nat} :
    walk? [.item x.2] v = some x.1 ↔ ∃ items, v = .array items ∧ x ∈ items.zipIdx := by
  have hitems := @mem_zipIdx_items_iff (some v) x
  simp only [Option.bind_some] at hitems
  simp only [walk?, List.foldlM_cons, List.foldlM_nil, bind_pure, ← hitems]
  cases v <;> simp [Json.items?]

/-- The columns that the check goes into are those of a row in which nothing is hidden. -/
theorem mem_columnsOf_iff {i : Nat} {v : Json} {x : Json × Nat} : x ∈ (columnsOf has v).zipIdx ↔
    HasType v "row" ∧ Shown has (.top i) v ∧
      walk? [.member "props", .member "columns", .item x.2] v = some x.1 := by
  have hwalk {props : Members} (hprops : HasMember v "props" (.object props)) :
      walk? [.member "props", .member "columns", .item x.2] v =
        (props.get? "columns").bind fun u => (Step.item x.2).take? u := by
    obtain ⟨ms, rfl, hget⟩ := hprops
    simp [walk?, Step.take?, Json.members?, hget]
  constructor
  · intro h
    rw [columnsOf] at h
    cases hhead : blockHead has false v with
    | error fault =>
      rw [hhead] at h
      cases h
    | ok head =>
      obtain ⟨kind, props⟩ := head
      obtain ⟨htype, hprops⟩ := hasType_of_blockHead hhead
      rw [hhead] at h
      dsimp only at h
      split at h
      · rename_i hrow
        obtain rfl := eq_of_beq hrow
        rw [mem_zipIdx_items_iff, ← hwalk hprops] at h
        exact ⟨htype, shown_of_blockHead (p := .top i) (by simp) hhead, h⟩
      · cases h
  · rintro ⟨htype, hshown, h⟩
    obtain ⟨-, props, hhead, hprops⟩ := exists_blockHead_of_shown hshown htype
    have hrow : (Kind.ofName "row").isRow = true := isRow_ofName_iff.2 rfl
    have hhead' : blockHead has false v = .ok (Kind.ofName "row", props) := hhead
    rw [columnsOf, hhead']
    dsimp only
    rw [if_pos hrow, mem_zipIdx_items_iff, ← hwalk hprops]
    exact h

theorem mem_itemsOf?_zipIdx_iff {column : Json} {y : Json × Nat} :
    y ∈ ((itemsOf? column "blocks").getD []).zipIdx ↔
      walk? [.member "blocks", .item y.2] column = some y.1 := by
  cases column with
  | object ms =>
    rw [itemsOf?, Json.members?, Option.bind_some, mem_zipIdx_items_iff]
    simp [walk?, Step.take?, Json.members?]
  | _ => simp [itemsOf?, walk?, Step.take?, Json.members?]

/-- The value of a spot that is visited is the one that the steps lead to. -/
theorem Visits.walk?_eq {v w : Json} {p : Spot} (h : Visits has v p w) :
    walk? p.steps v = some w := by
  cases h with
  | list => rfl
  | top h => exact h
  | nested _ _ _ h => exact h

/-- **The check looks at the spots that are visited**, and finds there what is reported. -/
theorem mem_findings_iff {v : Json} {g : Finding} : g ∈ findings has v ↔
    ∃ w, Visits has v g.spot w ∧ g.faults = faultsAt has g.spot w := by
  obtain ⟨p, faults⟩ := g
  rw [findings]
  constructor
  · intro hg
    cases hitems : v.items? with
    | none =>
      rw [hitems] at hg
      cases List.mem_singleton.mp hg
      refine ⟨v, .list ?_, by rw [faultsAt, hitems]; rfl⟩
      rintro items rfl
      cases hitems
    | some items =>
      rw [hitems] at hg
      obtain rfl := Json.items?_eq_some hitems
      obtain ⟨x, hx, hg⟩ := List.mem_flatMap.mp hg
      have htop : walk? (Spot.top x.2).steps (.array items) = some x.1 :=
        walk?_item.2 ⟨items, rfl, hx⟩
      rcases List.mem_cons.mp hg with heq | hg
      · cases heq
        exact ⟨x.1, .top htop, rfl⟩
      · obtain ⟨y, hy, hg⟩ := List.mem_flatMap.mp hg
        obtain ⟨z, hz, heq⟩ := List.mem_map.mp hg
        cases heq
        obtain ⟨htype, hshown, hcolumn⟩ := (mem_columnsOf_iff (i := x.2)).1 hy
        refine ⟨z.1, .nested htop htype hshown ?_, rfl⟩
        show walk? ((Spot.top x.2).steps ++ ([.member "props", .member "columns", .item y.2] ++
          [.member "blocks", .item z.2])) (.array items) = some z.1
        rw [walk?_append, htop, Option.bind_some, walk?_append, hcolumn, Option.bind_some,
          mem_itemsOf?_zipIdx_iff.1 hz]
  · rintro ⟨w, hvisits, hfaults⟩
    dsimp only at hvisits hfaults
    subst hfaults
    cases hvisits with
    | list h =>
      cases v with
      | array items => exact absurd rfl (h items)
      | _ => exact List.mem_singleton_self _
    | @top i _ h =>
      obtain ⟨items, rfl, hx⟩ := (walk?_item (x := (w, i))).1 h
      exact List.mem_flatMap.mpr ⟨_, hx, List.mem_cons_self⟩
    | @nested i j k row _ hrow htype hshown h =>
      obtain ⟨items, rfl, hx⟩ := (walk?_item (x := (row, i))).1 hrow
      have hsteps : walk? ((Spot.top i).steps ++ ([.member "props", .member "columns", .item j] ++
          [.member "blocks", .item k])) (.array items) = some w := h
      rw [walk?_append, hrow, Option.bind_some, walk?_append] at hsteps
      obtain ⟨column, hcolumn, hblock⟩ := Option.bind_eq_some_iff.1 hsteps
      refine List.mem_flatMap.mpr ⟨_, hx, List.mem_cons_of_mem _ (List.mem_flatMap.mpr ?_)⟩
      refine ⟨(column, j), (mem_columnsOf_iff (i := i)).2 ⟨htype, hshown, hcolumn⟩, ?_⟩
      exact List.mem_map.mpr ⟨(w, k), mem_itemsOf?_zipIdx_iff.2 hblock, rfl⟩

/-! ## Reports -/

/-- The faults of a finding are the share of the value at its spot, are true of that value, and can
    be reported there. -/
def Finding.Sound (has : Kind → Bool) (v : Json) (g : Finding) : Prop :=
  ∃ w, walk? g.spot.steps v = some w ∧ Share has g.spot w g.faults ∧
    ∀ fault ∈ g.faults, Breaks has w fault ∧ g.spot.Takes fault

/-- **Every finding is sound.** -/
theorem findings_sound (v : Json) : ∀ g ∈ findings has v, g.Sound has v := by
  intro g hg
  obtain ⟨w, hvisits, hfaults⟩ := mem_findings_iff.1 hg
  have hshare : Share has g.spot w g.faults := share_iff.2 hfaults
  exact ⟨w, hvisits.walk?_eq, hshare, hshare.sound⟩

theorem exists_finding_iff {v : Json} {p : Spot} :
    (∃ g ∈ findings has v, g.spot = p) ↔ ∃ w, Visits has v p w := by
  constructor
  · rintro ⟨g, hg, rfl⟩
    obtain ⟨w, hvisits, -⟩ := mem_findings_iff.1 hg
    exact ⟨w, hvisits⟩
  · rintro ⟨w, hvisits⟩
    exact ⟨⟨p, faultsAt has p w⟩, mem_findings_iff.2 ⟨w, hvisits, rfl⟩, rfl⟩

/-- **Reports point at faults.**  The reports on a value come from the spots in it that are visited,
    in the order of the document and each once.  The path of a report says which spot it is of; the
    value that is found there breaks, on its own, the rule that the report names.  Each value
    contributes exactly its share: one fault that hides what is in it, or one for each required prop
    of a button or an image that is not filled.  Nothing is reported as nested too deeply. -/
theorem reports_point_at_faults (has : Kind → Bool) (v : Json) :
    Function.Injective Spot.text ∧ (∀ p w, ∃! faults, Share has p w faults) ∧
      (∃ found : List Finding, structureFaults has v = found.flatMap Finding.reports ∧
        (found.Pairwise fun g h => g.spot.Before h.spot) ∧ (∀ g ∈ found, g.Sound has v) ∧
        ∀ p, (∃ g ∈ found, g.spot = p) ↔ ∃ w, Visits has v p w) ∧
      ∀ r ∈ structureFaults has v, ∀ most, r.fault ≠ .tooDeep most := by
  refine ⟨Spot.text_injective, fun p w => ⟨_, share_faultsAt has p w, fun _ h => h.eq_faultsAt⟩,
    ⟨findings has v, structureFaults_eq v, findings_before v, findings_sound v,
      fun p => exists_finding_iff⟩, ?_⟩
  rintro r hr most hfault
  rw [structureFaults_eq] at hr
  obtain ⟨g, hg, hr⟩ := List.mem_flatMap.mp hr
  obtain ⟨fault, hmem, rfl⟩ := List.mem_map.mp hr
  obtain ⟨w, -, -, hfaults⟩ := findings_sound v g hg
  obtain rfl : fault = .tooDeep most := hfault
  exact (hfaults _ hmem).1

end Letterpress.Validation
