/-
  Fields set over those of a record.

  * `RecordType` is a type of records: how they are written and read, and what its fields are.  An
    object is read field by field (`read?_iff`), and what is storable is read as what was written.
  * `RecordType.merge?` sets members over those of a record, `RecordType.mergeInto` does so in place
    and says whether it could.  `RowLayout.recordType`, `RowStyle.recordType`,
    `ColumnStyle.recordType` and `Settings.recordType` are the types that a session merges into
    (`Block.mergeProps?_row`, `Editor.updateSettings?_eq`, ...).
  * `Combines`: the same laws for an update of a session; `Editor.UpdatesCombine` are those of the
    props of rows, of styles and of settings.
  * `partial_updates_compose`: nothing set changes nothing, unknown names do not count, and to merge
    twice is to merge once, in records and in sessions.
-/
import Letterpress.Proofs.Block.RoundTrip
import Letterpress.Proofs.Editor.Storable

namespace Letterpress

open Json (AllNumbers absent optional absent_forall optional_forall record?_record)
open Json.Number (Finite keptAsDouble_finite)

/-! ## Types of records -/

/-- A field of a record: what it is read as, and what it is in a record. -/
structure RecordField (α : Type) where
  name : String
  {Part : Type}
  read? : Option Json → Option Part
  part : α → Part

/-- A type of records that are written as an object and read field by field. -/
structure RecordType (α : Type) where
  members : α → Members
  read? : Members → Option α
  fields : List (RecordField α)
  /-- What is read as it was written. -/
  Storable : α → Prop
  ordered_members : ∀ a, (members a).Ordered
  finite_members : ∀ a, Storable a → (Json.object (members a)).IsFinite
  read?_members : ∀ a, Storable a → read? (members a) = some a
  read?_iff : ∀ {ms : Members}, ms.Ordered → ∀ a,
    read? ms = some a ↔ ∀ f ∈ fields, f.read? (ms.get? f.name) = some (f.part a)
  storable_of_read? : ∀ {ms : Members} {a}, read? ms = some a → (Json.object ms).IsFinite →
    Storable a

namespace RecordType

variable {α : Type} (t : RecordType α)

/-- The record with members set over its own. -/
def merge? (updates : Members) (a : α) : Option α := t.read? ((t.members a).extend updates)

/-- The record with members set over its own, if the result is one of its type, and whether it is;
    otherwise the record as it was. -/
def mergeInto (updates : Members) (a : α) : Bool × α :=
  (t.merge? updates a).elim (false, a) fun a' => (true, a')

/-- The names of the fields. -/
def names : List String := t.fields.map (·.name)

variable {t} {a b c : α} {u u₁ u₂ : Members}

theorem mergeInto_of_none (h : t.merge? u a = none) : t.mergeInto u a = (false, a) := by
  rw [mergeInto, h]
  rfl

theorem mergeInto_of_some (h : t.merge? u a = some b) : t.mergeInto u a = (true, b) := by
  rw [mergeInto, h]
  rfl

theorem merge?_of_mergeInto (h : (t.mergeInto u a).1 = true) :
    t.merge? u a = some (t.mergeInto u a).2 := by
  cases hm : t.merge? u a with
  | none =>
    rw [mergeInto_of_none hm] at h
    cases h
  | some b => rw [mergeInto_of_some hm]

/-- A merge looks at each field in the updates first, and then in the record. -/
theorem merge?_iff (hu : u.Ordered) : t.merge? u a = some b ↔
    ∀ f ∈ t.fields, f.read? ((u.get? f.name).or ((t.members a).get? f.name)) = some (f.part b) := by
  rw [merge?, t.read?_iff (Dict.ordered_extend (t.ordered_members a) u)]
  simp only [Dict.get?_extend_of_ordered hu]

/-! ## Laws -/

theorem merge?_nil (ha : t.Storable a) : t.merge? [] a = some a := t.read?_members a ha

theorem merge?_congr (h₁ : u₁.Ordered) (h₂ : u₂.Ordered)
    (h : ∀ name ∈ t.names, u₁.get? name = u₂.get? name) : t.merge? u₁ a = t.merge? u₂ a := by
  refine Option.ext fun b => ?_
  rw [merge?_iff h₁, merge?_iff h₂]
  refine forall₂_congr fun f hf => ?_
  rw [h f.name (List.mem_map_of_mem hf)]

theorem storable_of_merge? (ha : t.Storable a) (hu : (Json.object u).IsFinite)
    (h : t.merge? u a = some b) : t.Storable b :=
  t.storable_of_read? h (Json.allNumbers_extend (t.finite_members a ha) hu)

/-- To merge twice is to merge once: what the first merge left in a field is what it was read as,
    whether that came from the updates or from the record. -/
theorem merge?_extend (ha : t.Storable a) (h₁ : u₁.Ordered) (hfinite : (Json.object u₁).IsFinite)
    (h₂ : u₂.Ordered) (h : t.merge? u₁ a = some b) :
    t.merge? u₂ b = t.merge? (u₁.extend u₂) a := by
  have hb : t.read? (t.members b) = some b :=
    t.read?_members b (storable_of_merge? ha hfinite h)
  refine Option.ext fun c => ?_
  rw [merge?_iff h₂, merge?_iff (Dict.ordered_extend h₁ u₂)]
  refine forall₂_congr fun f hf => ?_
  have hleft : f.read? ((t.members b).get? f.name) = some (f.part b) :=
    (t.read?_iff (t.ordered_members b) b).1 hb f hf
  have hright : f.read? ((u₁.get? f.name).or ((t.members a).get? f.name)) = some (f.part b) :=
    (merge?_iff h₁).1 h f hf
  rw [Dict.get?_extend_of_ordered h₂, Option.or_assoc]
  cases u₂.get? f.name with
  | none => rw [Option.none_or, Option.none_or, hleft, hright]
  | some v => rfl

/-- The laws of merging into a record. -/
structure Composes (t : RecordType α) (a : α) : Prop where
  /-- To set nothing succeeds and changes nothing. -/
  nothing : t.mergeInto [] a = (true, a)
  /-- Only the names of the fields count. -/
  unknown : ∀ {u u' : Members}, u.Ordered → u'.Ordered →
    (∀ name ∈ t.names, u.get? name = u'.get? name) → t.mergeInto u a = t.mergeInto u' a
  /-- After a merge that succeeds another one does what both at once do to the first record. -/
  twice : ∀ {u₁ u₂ : Members}, u₁.Ordered → (Json.object u₁).IsFinite → u₂.Ordered →
    (t.mergeInto u₁ a).1 = true →
      let after := t.mergeInto u₂ (t.mergeInto u₁ a).2
      let once := t.mergeInto (u₁.extend u₂) a
      after.1 = once.1 ∧ (once.1 = true → after.2 = once.2)
  /-- A merge that fails leaves the record as it was. -/
  failed : ∀ u : Members, (t.mergeInto u a).1 = false → (t.mergeInto u a).2 = a

theorem composes (ha : t.Storable a) : t.Composes a := by
  constructor
  case nothing => exact mergeInto_of_some (merge?_nil ha)
  case unknown =>
    intro u u' hu hu' h
    rw [mergeInto, mergeInto, merge?_congr hu hu' h]
  case twice =>
    intro u₁ u₂ h₁ hfinite h₂ hfirst
    have hmerge := merge?_extend ha h₁ hfinite h₂ (merge?_of_mergeInto hfirst)
    dsimp only
    cases hone : t.merge? (u₁.extend u₂) a with
    | none =>
      rw [mergeInto_of_none hone, mergeInto_of_none (hmerge.trans hone)]
      exact ⟨rfl, nofun⟩
    | some c =>
      rw [mergeInto_of_some hone, mergeInto_of_some (hmerge.trans hone)]
      exact ⟨rfl, fun _ => rfl⟩
  case failed =>
    intro u h
    cases hm : t.merge? u a with
    | none => rw [mergeInto_of_none hm]
    | some b =>
      rw [mergeInto_of_some hm] at h
      cases h

end RecordType

/-! ## Styles -/

namespace RowStyle

/-- The members that the style is written with. -/
def members (s : RowStyle) : Members := s.toJson.members?.getD []

/-- The fields of the style. -/
def fields : List (RecordField RowStyle) :=
  [⟨"backgroundColor", optional Json.text?, (·.backgroundColor)⟩,
   ⟨"backgroundImage", optional Json.text?, (·.backgroundImage)⟩,
   ⟨"backgroundSize", optional Json.text?, (·.backgroundSize)⟩,
   ⟨"backgroundPosition", optional Json.text?, (·.backgroundPosition)⟩,
   ⟨"padding", optional Padding.ofJson?, (·.padding)⟩,
   ⟨"borderRadius", optional Json.double?, (·.borderRadius)⟩,
   ⟨"textAlign", optional Json.text?, (·.textAlign)⟩]

theorem ofJson?_object_iff {ms : Members} (h : ms.Ordered) (s : RowStyle) :
    ofJson? (.object ms) = some s ↔
      ∀ f ∈ fields, f.read? (ms.get? f.name) = some (f.part s) := by
  rw [ofJson?, Json.record?_object_of_ordered h]
  simp only [List.map_cons, List.map_nil, Option.bind_eq_bind, Option.bind_some,
    Option.bind_eq_some_iff, fields, List.forall_mem_cons]
  constructor
  · rintro ⟨color, hcolor, image, himage, size, hsize, position, hposition, padding, hpadding,
      radius, hradius, align, halign, ⟨⟩⟩
    exact ⟨hcolor, himage, hsize, hposition, hpadding, hradius, halign,
      fun f hf => absurd hf List.not_mem_nil⟩
  · rintro ⟨hcolor, himage, hsize, hposition, hpadding, hradius, halign, -⟩
    exact ⟨_, hcolor, _, himage, _, hsize, _, hposition, _, hpadding, _, hradius, _, halign, rfl⟩

/-- The styles of rows as a type of records. -/
def recordType : RecordType RowStyle where
  members := members
  read? ms := ofJson? (.object ms)
  fields := fields
  Storable s := ∀ x ∈ s.doubles, x.isFinite = true
  ordered_members _ := Dict.ordered_ofPairs _
  finite_members _ h := allNumbers_toJson (p := Finite) h
  read?_members _ h := ofJson?_toJson h
  read?_iff h s := ofJson?_object_iff h s
  storable_of_read? h hfinite := doubles_of_ofJson? keptAsDouble_finite hfinite h

end RowStyle

namespace ColumnStyle

/-- The members that the style is written with. -/
def members (s : ColumnStyle) : Members := s.toJson.members?.getD []

/-- The fields of the style. -/
def fields : List (RecordField ColumnStyle) :=
  [⟨"backgroundColor", optional Json.text?, (·.backgroundColor)⟩,
   ⟨"backgroundImage", optional Json.text?, (·.backgroundImage)⟩,
   ⟨"backgroundSize", optional Json.text?, (·.backgroundSize)⟩,
   ⟨"backgroundPosition", optional Json.text?, (·.backgroundPosition)⟩,
   ⟨"overlayColor", optional Json.text?, (·.overlayColor)⟩,
   ⟨"overlayOpacity", optional Json.double?, (·.overlayOpacity)⟩,
   ⟨"verticalAlign", optional Json.text?, (·.verticalAlign)⟩,
   ⟨"padding", optional Padding.ofJson?, (·.padding)⟩,
   ⟨"borderRadius", optional Json.double?, (·.borderRadius)⟩]

theorem ofJson?_object_iff {ms : Members} (h : ms.Ordered) (s : ColumnStyle) :
    ofJson? (.object ms) = some s ↔
      ∀ f ∈ fields, f.read? (ms.get? f.name) = some (f.part s) := by
  rw [ofJson?, Json.record?_object_of_ordered h]
  simp only [List.map_cons, List.map_nil, Option.bind_eq_bind, Option.bind_some,
    Option.bind_eq_some_iff, fields, List.forall_mem_cons]
  constructor
  · rintro ⟨color, hcolor, image, himage, size, hsize, position, hposition, overlay, hoverlay,
      opacity, hopacity, align, halign, padding, hpadding, radius, hradius, ⟨⟩⟩
    exact ⟨hcolor, himage, hsize, hposition, hoverlay, hopacity, halign, hpadding, hradius,
      fun f hf => absurd hf List.not_mem_nil⟩
  · rintro ⟨hcolor, himage, hsize, hposition, hoverlay, hopacity, halign, hpadding, hradius, -⟩
    exact ⟨_, hcolor, _, himage, _, hsize, _, hposition, _, hoverlay, _, hopacity, _, halign, _,
      hpadding, _, hradius, rfl⟩

/-- The styles of columns as a type of records. -/
def recordType : RecordType ColumnStyle where
  members := members
  read? ms := ofJson? (.object ms)
  fields := fields
  Storable s := ∀ x ∈ s.doubles, x.isFinite = true
  ordered_members _ := Dict.ordered_ofPairs _
  finite_members _ h := allNumbers_toJson (p := Finite) h
  read?_members _ h := ofJson?_toJson h
  read?_iff h s := ofJson?_object_iff h s
  storable_of_read? h hfinite := doubles_of_ofJson? keptAsDouble_finite hfinite h

end ColumnStyle

/-! ## Rows -/

theorem except_toOption_eq_some {ε α : Type} {x : Except ε α} {a : α} :
    x.toOption = some a ↔ x = .ok a := by
  cases x with
  | error e => exact ⟨nofun, nofun⟩
  | ok b => exact ⟨fun h => congrArg Except.ok (Option.some.inj h),
      fun h => congrArg some (Except.ok.inj h)⟩

namespace RowLayout

/-- The fields of the row. -/
def fields : List (RecordField RowLayout) :=
  [⟨"preset", absent .twoEqual Preset.ofJson?, (·.preset)⟩,
   ⟨"columns", fun columns => (Column.listOfJson columns).toOption, (·.columns)⟩,
   ⟨"gap", absent initialGap Json.double?, (·.gap)⟩,
   ⟨"stackOnMobile", absent true Json.bool?, (·.stackOnMobile)⟩,
   ⟨"style", absent .initial RowStyle.ofJson?, (·.style)⟩]

theorem ofMembers?_iff {ms : Members} (h : ms.Ordered) (l : RowLayout) :
    ofMembers? ms = some l ↔ ∀ f ∈ fields, f.read? (ms.get? f.name) = some (f.part l) := by
  rw [ofMembers?, except_toOption_eq_some, ofJson_object h]
  simp only [fields, List.forall_mem_cons, except_toOption_eq_some]
  constructor
  · intro h
    obtain ⟨columns, hcolumns, h⟩ := except_bind_eq_ok h
    obtain ⟨preset, hpreset, h⟩ := orFault_bind_eq_ok h
    obtain ⟨gap, hgap, h⟩ := orFault_bind_eq_ok h
    obtain ⟨stack, hstack, h⟩ := orFault_bind_eq_ok h
    obtain ⟨style, hstyle, h⟩ := orFault_bind_eq_ok h
    cases h
    exact ⟨hpreset, hcolumns, hgap, hstack, hstyle, fun f hf => absurd hf List.not_mem_nil⟩
  · rintro ⟨hpreset, hcolumns, hgap, hstack, hstyle, -⟩
    rw [hcolumns, hpreset, hgap, hstack, hstyle]
    rfl

/-- The rows as a type of records. -/
def recordType : RecordType RowLayout where
  members := toMembers
  read? := ofMembers?
  fields := fields
  Storable l := l.Storable Finite
  ordered_members _ := Dict.ordered_ofPairs _
  finite_members _ h := h.toMembers
  read?_members _ h := except_toOption_eq_some.2 h.ofJson_toJson
  read?_iff h l := ofMembers?_iff h l
  storable_of_read? h hfinite := storable_of_ofMembers? keptAsDouble_finite h hfinite

end RowLayout

/-! ## Settings -/

theorem natBelow?_int {n bound : Nat} (h : n < bound) :
    Json.natBelow? bound (Json.int n) = some n := by
  rw [Json.int, Json.natBelow?, if_pos ⟨Int.natCast_nonneg n, by omega⟩, Int.toNat_natCast]

theorem lt_of_natBelow? {n bound : Nat} {v : Json} (h : Json.natBelow? bound v = some n) :
    n < bound := by
  unfold Json.natBelow? at h
  split at h
  · split at h
    · cases h
      omega
    · cases h
  · cases h

namespace Settings

/-- The members that the settings are written with. -/
def members (s : Settings) : Members := s.toJson.members?.getD []

/-- The fields of the settings. -/
def fields : List (RecordField Settings) :=
  [⟨"fontFamily", absent initial.fontFamily Json.text?, (·.fontFamily)⟩,
   ⟨"backgroundColor", absent initial.backgroundColor Json.text?, (·.backgroundColor)⟩,
   ⟨"contentBackgroundColor", absent initial.contentBackgroundColor Json.text?,
     (·.contentBackgroundColor)⟩,
   ⟨"contentWidth", absent initial.contentWidth (Json.natBelow? widthBound), (·.contentWidth)⟩]

theorem ofJson?_object_iff {ms : Members} (h : ms.Ordered) (s : Settings) :
    ofJson? (.object ms) = some s ↔
      ∀ f ∈ fields, f.read? (ms.get? f.name) = some (f.part s) := by
  rw [ofJson?, Json.record?_object_of_ordered h]
  simp only [List.map_cons, List.map_nil, Option.bind_eq_bind, Option.bind_some,
    Option.bind_eq_some_iff, fields, List.forall_mem_cons]
  constructor
  · rintro ⟨font, hfont, background, hbackground, content, hcontent, width, hwidth, ⟨⟩⟩
    exact ⟨hfont, hbackground, hcontent, hwidth, fun f hf => absurd hf List.not_mem_nil⟩
  · rintro ⟨hfont, hbackground, hcontent, hwidth, -⟩
    exact ⟨_, hfont, _, hbackground, _, hcontent, _, hwidth, rfl⟩

/-- The members in the order of their names. -/
theorem members_eq (s : Settings) : s.members =
    [("backgroundColor", .string s.backgroundColor),
     ("contentBackgroundColor", .string s.contentBackgroundColor),
     ("contentWidth", Json.int s.contentWidth), ("fontFamily", .string s.fontFamily)] := by
  simp only [members, toJson, Json.record, Json.members?, Option.getD_some, List.filterMap_cons,
    List.filterMap_nil, Option.map_some, Dict.ofPairs, Dict.extend, List.foldl_cons,
    List.foldl_nil, Dict.insert, String.reduceEq, String.reduceLT, if_true, if_false]

theorem ofJson?_members {s : Settings} (h : s.contentWidth < widthBound) :
    ofJson? (.object s.members) = some s := by
  have hordered : s.members.Ordered := Dict.ordered_ofPairs _
  rw [ofJson?_object_iff hordered, members_eq]
  -- The bound is too large to unfold what reads the width.
  have hwidth : absent initial.contentWidth (Json.natBelow? widthBound)
      (some (Json.int s.contentWidth)) = some s.contentWidth := by
    rw [absent, natBelow?_int h]
  simp only [fields, List.forall_mem_cons]
  exact ⟨rfl, rfl, rfl, hwidth, fun f hf => absurd hf List.not_mem_nil⟩

theorem finite_members {s : Settings} (h : s.contentWidth < widthBound) :
    (Json.object s.members).IsFinite := by
  have hbound : widthBound = 2 ^ 32 := rfl
  have hlow : Decimal.signedBound = 2 ^ 63 := rfl
  have hhigh : Decimal.wordBound = 2 ^ 64 := rfl
  have hwidth : Finite (.integer s.contentWidth) := by
    simp only [Json.Number.Finite, Json.Number.isFinite, Json.Number.isBounded, Bool.and_eq_true,
      decide_eq_true_eq]
    omega
  rw [members_eq]
  simpa [Json.IsFinite, Json.int] using hwidth

theorem contentWidth_of_ofJson? {v : Json} {s : Settings} (h : ofJson? v = some s) :
    s.contentWidth < widthBound := by
  simp only [ofJson?, Option.bind_eq_bind, Option.bind_eq_some_iff] at h
  obtain ⟨vs, -, h⟩ := h
  split at h
  · simp only [Option.bind_eq_some_iff] at h
    obtain ⟨font, -, background, -, content, -, width, hwidth, ⟨⟩⟩ := h
    exact absent_forall (P := fun n => n < widthBound) hwidth (by decide) fun w _ n hn =>
      lt_of_natBelow? hn
  · cases h

/-- The settings as a type of records. -/
def recordType : RecordType Settings where
  members := members
  read? ms := ofJson? (.object ms)
  fields := fields
  Storable s := s.contentWidth < widthBound
  ordered_members _ := Dict.ordered_ofPairs _
  finite_members _ h := finite_members h
  read?_members _ h := ofJson?_members h
  read?_iff h s := ofJson?_object_iff h s
  storable_of_read? h _ := contentWidth_of_ofJson? h

end Settings

/-! ## The merges of a session -/

/-- The row with members set over those of its style. -/
def RowLayout.restyled? (u : Members) (l : RowLayout) : Option (Unit × RowLayout) :=
  (RowStyle.recordType.merge? u l.style).map fun style => ((), { l with style })

/-- The column with members set over those of its style. -/
def Column.restyled? (u : Members) (c : Column) : Option (Unit × Column) :=
  (ColumnStyle.recordType.merge? u (c.style.getD .plain)).map fun style =>
    ((), { c with style := some style })

section

variable {u u' u₁ u₂ : Members}

theorem Block.mergeProps?_row (id : String) (l : RowLayout) (u : Members) :
    (Block.row id l).mergeProps? u = (RowLayout.recordType.merge? u l).map (.row id) := rfl

theorem RowLayout.restyled?_congr (hu : u.Ordered) (hu' : u'.Ordered)
    (h : ∀ name ∈ RowStyle.recordType.names, u.get? name = u'.get? name) :
    restyled? u = restyled? u' := by
  funext l
  rw [restyled?, restyled?, RecordType.merge?_congr hu hu' h]

theorem RowLayout.restyled?_again {l l' : RowLayout} {b : Unit} (hl : l.Storable Finite)
    (h₁ : u₁.Ordered) (hfinite : (Json.object u₁).IsFinite) (h₂ : u₂.Ordered)
    (h : restyled? u₁ l = some (b, l')) : restyled? u₂ l' = restyled? (u₁.extend u₂) l := by
  obtain ⟨style, hmerge, ⟨⟩⟩ := Option.map_eq_some_iff.1 h
  rw [restyled?, restyled?, RecordType.merge?_extend hl.style h₁ hfinite h₂ hmerge]

theorem Column.restyled?_congr (hu : u.Ordered) (hu' : u'.Ordered)
    (h : ∀ name ∈ ColumnStyle.recordType.names, u.get? name = u'.get? name) :
    restyled? u = restyled? u' := by
  funext c
  rw [restyled?, restyled?, RecordType.merge?_congr hu hu' h]

theorem Column.restyled?_again {c c' : Column} {b : Unit} (hc : c.Storable Finite)
    (h₁ : u₁.Ordered) (hfinite : (Json.object u₁).IsFinite) (h₂ : u₂.Ordered)
    (h : restyled? u₁ c = some (b, c')) :
    c'.id = c.id ∧ restyled? u₂ c' = restyled? (u₁.extend u₂) c := by
  obtain ⟨style, hmerge, ⟨⟩⟩ := Option.map_eq_some_iff.1 h
  have hstyle : ∀ x ∈ (c.style.getD .plain).doubles, x.isFinite = true := by
    cases hs : c.style with
    | none => exact fun x hx => absurd hx List.not_mem_nil
    | some s => exact hc.style s hs
  refine ⟨rfl, ?_⟩
  rw [restyled?, restyled?, ← RecordType.merge?_extend hstyle h₁ hfinite h₂ hmerge]
  rfl

end

/-- The laws of an update that sets members or is refused, as far as a view shows: only the names of
    fields count, and after an update another one does what both at once do. -/
structure Combines {σ τ : Type} (update : Members → σ → Option σ) (names : List String)
    (view : σ → τ) (x : σ) : Prop where
  unknown : ∀ {u u' : Members}, u.Ordered → u'.Ordered →
    (∀ name ∈ names, u.get? name = u'.get? name) → update u x = update u' x
  twice : ∀ {u₁ u₂ : Members} {y : σ}, u₁.Ordered → (Json.object u₁).IsFinite → u₂.Ordered →
    update u₁ x = some y → (update u₂ y).map view = (update (u₁.extend u₂) x).map view

/-- The props of a row combine. -/
theorem Block.combines_mergeProps? {l : RowLayout} (hl : l.Storable Finite) (id : String) :
    Combines Block.mergeProps? RowLayout.recordType.names (fun b => b) (.row id l) := by
  constructor
  case unknown =>
    intro u u' hu hu' h
    rw [mergeProps?_row, mergeProps?_row, RecordType.merge?_congr hu hu' h]
  case twice =>
    intro u₁ u₂ y h₁ hfinite h₂ hy
    rw [mergeProps?_row] at hy
    obtain ⟨l', hmerge, rfl⟩ := Option.map_eq_some_iff.1 hy
    rw [mergeProps?_row, mergeProps?_row, RecordType.merge?_extend hl h₁ hfinite h₂ hmerge]

namespace Editor

open Editing

variable {row column : String} {u : Members} {e : Editor}

theorem updateSettings?_eq : e.updateSettings? u =
    (Settings.recordType.merge? u e.settings).map fun settings =>
      { e with settings, dirty := true } := rfl

theorem updateRowStyle?_eq : e.updateRowStyle? row u =
    (inRow? row (RowLayout.restyled? u) e.blocks).map fun (_, blocks) => e.record blocks := rfl

theorem updateColumnStyle?_eq : e.updateColumnStyle? row column u =
    (inColumn? row column (Column.restyled? u) e.blocks).map fun (_, blocks) =>
      e.record blocks := rfl

/-- What an editor shows: the blocks and the settings. -/
def shown (e : Editor) : List Block × Settings := (e.blocks, e.settings)

theorem combines_updateSettings? (h : e.settings.contentWidth < widthBound) :
    Combines updateSettings? Settings.recordType.names shown e := by
  constructor
  case unknown =>
    intro u u' hu hu' hnames
    rw [updateSettings?_eq, updateSettings?_eq, RecordType.merge?_congr hu hu' hnames]
  case twice =>
    intro u₁ u₂ y h₁ hfinite h₂ hy
    rw [updateSettings?_eq] at hy
    obtain ⟨settings, hmerge, rfl⟩ := Option.map_eq_some_iff.1 hy
    rw [updateSettings?_eq, updateSettings?_eq,
      RecordType.merge?_extend h h₁ hfinite h₂ hmerge]

theorem combines_updateRowStyle? (h : ∀ b ∈ e.blocks, b.Storable Finite) (row : String) :
    Combines (updateRowStyle? row) RowStyle.recordType.names shown e := by
  constructor
  case unknown =>
    intro u u' hu hu' hnames
    rw [updateRowStyle?_eq, updateRowStyle?_eq, RowLayout.restyled?_congr hu hu' hnames]
  case twice =>
    intro u₁ u₂ y h₁ hfinite h₂ hy
    rw [updateRowStyle?_eq] at hy
    obtain ⟨⟨_, blocks⟩, hset, rfl⟩ := Option.map_eq_some_iff.1 hy
    have hagain : inRow? row (RowLayout.restyled? u₂) blocks =
        inRow? row (RowLayout.restyled? (u₁.extend u₂)) e.blocks := by
      refine inRow?_again (fun l hl _ l' hl' => ?_) hset
      obtain ⟨id, hmem⟩ := mem_of_findRow? hl
      exact RowLayout.restyled?_again (h _ hmem) h₁ hfinite h₂ hl'
    rw [updateRowStyle?_eq, updateRowStyle?_eq, ← hagain, Option.map_map, Option.map_map]
    rfl

theorem combines_updateColumnStyle? (h : ∀ b ∈ e.blocks, b.Storable Finite)
    (row column : String) :
    Combines (updateColumnStyle? row column) ColumnStyle.recordType.names shown e := by
  constructor
  case unknown =>
    intro u u' hu hu' hnames
    rw [updateColumnStyle?_eq, updateColumnStyle?_eq, Column.restyled?_congr hu hu' hnames]
  case twice =>
    intro u₁ u₂ y h₁ hfinite h₂ hy
    rw [updateColumnStyle?_eq] at hy
    obtain ⟨⟨_, blocks⟩, hset, rfl⟩ := Option.map_eq_some_iff.1 hy
    have hagain : inColumn? row column (Column.restyled? u₂) blocks =
        inColumn? row column (Column.restyled? (u₁.extend u₂)) e.blocks := by
      refine inColumn?_again (fun l hl c hc _ c' hc' => ?_) hset
      obtain ⟨id, hmem⟩ := mem_of_findRow? hl
      exact Column.restyled?_again (RowLayout.Storable.columns (h _ hmem) c hc) h₁ hfinite h₂ hc'
    rw [updateColumnStyle?_eq, updateColumnStyle?_eq, ← hagain, Option.map_map, Option.map_map]
    rfl

/-- The updates of a session that merge into records combine. -/
structure UpdatesCombine (e : Editor) : Prop where
  row : ∀ id l, .row id l ∈ e.blocks →
    Combines Block.mergeProps? RowLayout.recordType.names (fun b => b) (.row id l)
  settings : Combines updateSettings? Settings.recordType.names shown e
  rowStyle : ∀ row, Combines (updateRowStyle? row) RowStyle.recordType.names shown e
  columnStyle : ∀ row column,
    Combines (updateColumnStyle? row column) ColumnStyle.recordType.names shown e

theorem updatesCombine (hblocks : ∀ b ∈ e.blocks, b.Storable Finite)
    (hwidth : e.settings.contentWidth < widthBound) : e.UpdatesCombine where
  row id _ hl := Block.combines_mergeProps? (hblocks _ hl) id
  settings := combines_updateSettings? hwidth
  rowStyle := combines_updateRowStyle? hblocks
  columnStyle := combines_updateColumnStyle? hblocks

end Editor

/-! ## Composing -/

/-- **Partial updates compose**, for rows, for the styles of rows and of columns and for settings:
    nothing set changes nothing, names that the type does not know do not count, to merge twice is
    to merge once, and a merge that fails leaves all as it was.  These are the merges of a session,
    and so its updates combine. -/
theorem partial_updates_compose :
    (∀ l : RowLayout, l.Storable Finite → RowLayout.recordType.Composes l) ∧
      (∀ s : RowStyle, (∀ x ∈ s.doubles, x.isFinite = true) → RowStyle.recordType.Composes s) ∧
      (∀ s : ColumnStyle, (∀ x ∈ s.doubles, x.isFinite = true) →
        ColumnStyle.recordType.Composes s) ∧
      (∀ s : Settings, s.contentWidth < widthBound → Settings.recordType.Composes s) ∧
      ∀ e : Editor, (∀ b ∈ e.blocks, b.Storable Finite) → e.settings.contentWidth < widthBound →
        e.UpdatesCombine :=
  ⟨fun _ h => RecordType.composes h, fun _ h => RecordType.composes h,
    fun _ h => RecordType.composes h, fun _ h => RecordType.composes h,
    fun _ hblocks hwidth => Editor.updatesCombine hblocks hwidth⟩

/-- A text taken away, a padding of one side and a name that styles do not have, and then another
    radius: the style of a new row is the same after both as after one update with all of it. -/
theorem partial_updates_compose_of_padding :
    let u₁ : Members := [("backgroundSize", .null), ("padding", .object [("top", Json.int 4)]),
      ("shadow", .bool true)]
    let u₂ : Members := [("borderRadius", Json.int 8)]
    let t := RowStyle.recordType
    let l : RowLayout :=
      ⟨.oneColumn, [⟨"c", "100%", [⟨"b", .text, []⟩], none⟩], RowLayout.initialGap, true, .initial⟩
    (l.Storable Finite ∧ RowLayout.recordType.Composes l) ∧
      (∀ x ∈ ColumnStyle.plain.doubles, x.isFinite = true) ∧
      ColumnStyle.recordType.Composes .plain ∧
      Settings.initial.contentWidth < widthBound ∧ Settings.recordType.Composes .initial ∧
      (∀ x ∈ RowStyle.initial.doubles, x.isFinite = true) ∧ u₁.Ordered ∧
      (Json.object u₁).IsFinite ∧ u₂.Ordered ∧
      t.mergeInto u₁ .initial =
        (true, { RowStyle.initial with
          backgroundSize := none
          padding := some ⟨Float.ofInt 4, 0.0, 0.0, 0.0⟩ }) ∧
      let after := t.mergeInto u₂ (t.mergeInto u₁ .initial).2
      let once := t.mergeInto (u₁.extend u₂) .initial
      (after.1 = once.1 ∧ (once.1 = true → after.2 = once.2)) ∧
        ∀ e', (Editor.start [.row "r" l] .initial).updateRowStyle? "r" u₁ = some e' →
          (e'.updateRowStyle? "r" u₂).map Editor.shown =
            ((Editor.start [.row "r" l] .initial).updateRowStyle? "r" (u₁.extend u₂)).map
              Editor.shown := by
  intro u₁ u₂ t l
  have hinitial : ∀ x ∈ RowStyle.initial.doubles, x.isFinite = true := by decide
  have hl : l.Storable Finite := by
    constructor
    case columns =>
      refine List.forall_mem_singleton.2 ⟨List.forall_mem_singleton.2 ⟨by decide, rfl, ?_⟩, ?_⟩
      · simp
      · rintro s ⟨⟩
    case gap => decide
    case style => exact hinitial
  have hplain : ∀ x ∈ ColumnStyle.plain.doubles, x.isFinite = true := by decide
  have hwidth : Settings.initial.contentWidth < widthBound := by decide
  have h₁ : u₁.Ordered := ⟨by decide, by decide, trivial⟩
  have hfinite : (Json.object u₁).IsFinite := by decide
  have h₂ : u₂.Ordered := trivial
  have hmerge : t.mergeInto u₁ .initial =
      (true, { RowStyle.initial with
        backgroundSize := none
        padding := some ⟨Float.ofInt 4, 0.0, 0.0, 0.0⟩ }) := by rfl
  have hblocks : ∀ b ∈ (Editor.start [.row "r" l] .initial).blocks, b.Storable Finite :=
    List.forall_mem_singleton.2 hl
  obtain ⟨hrow, hstyle, hcolumn, hsettings, hsession⟩ := partial_updates_compose
  exact ⟨⟨hl, hrow l hl⟩, hplain, hcolumn _ hplain, hwidth, hsettings _ hwidth, hinitial, h₁,
    hfinite, h₂, hmerge, (hstyle _ hinitial).twice h₁ hfinite h₂ (by rw [hmerge]),
    fun e' he' => ((hsession _ hblocks hwidth).rowStyle "r").twice h₁ hfinite h₂ he'⟩

end Letterpress
