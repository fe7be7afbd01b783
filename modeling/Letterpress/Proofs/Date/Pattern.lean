/-
  Patterns in the notation with percent signs.

  * `readItems` reads that notation, in which a percent sign that starts nothing is invalid;
    `formatItems` writes a moment by the items, if they are known.
  * `Translates s items`: the letters of `s` stand for the items, each token for its own.
  * `readItems_directives`: what a pattern is written with is read back, part by part.
  * `directives_unambiguous`: **a pattern in letters is translated without ambiguity**, and a moment
    is written by the translation as by the pattern.
-/
import Letterpress.Date.Pattern

namespace Letterpress.Pattern

/-! ## The notation with percent signs -/

/-- An item of the notation with percent signs. -/
inductive Item where
  | literal (c : Char)
  /-- A specifier, with a dash before its letter if it is unpadded. -/
  | specifier (unpadded : Bool) (letter : Char)
  | invalid
deriving DecidableEq, Repr

/-- The text of a specifier. -/
def specifierText (unpadded : Bool) (letter : Char) : List Char :=
  '%' :: if unpadded then ['-', letter] else [letter]

theorem specifierText_inj {unpadded unpadded' : Bool} {letter letter' : Char}
    (h : specifierText unpadded letter = specifierText unpadded' letter') :
    unpadded = unpadded' ∧ letter = letter' := by
  cases unpadded <;> cases unpadded' <;> simp_all [specifierText]

/-- The specifier with a letter, if it is one. -/
def Item.ofLetter (unpadded : Bool) (c : Char) : Item :=
  if c.isAlpha then .specifier unpadded c else .invalid

/-- The items of a text. -/
def readItems : List Char → List Item
  | [] => []
  | '%' :: '%' :: s => .literal '%' :: readItems s
  | '%' :: '-' :: c :: s => .ofLetter true c :: readItems s
  | '%' :: c :: s => .ofLetter false c :: readItems s
  | ['%'] => [.invalid]
  | c :: s => .literal c :: readItems s

/-- The field of a specifier. -/
def fieldOf? (unpadded : Bool) (letter : Char) : Option Field :=
  (Field.table.find? fun e => e.2.2.toList = specifierText unpadded letter).map (·.2.1)

/-- The text of an item for a moment, if it is a known one. -/
def Item.format? (m : Moment) : Item → Option (List Char)
  | .literal c => some [c]
  | .specifier unpadded letter => (fieldOf? unpadded letter).map (Field.format m)
  | .invalid => none

/-- The text of a moment, if all items are known. -/
def formatItems (m : Moment) (items : List Item) : Option (List Char) :=
  (items.mapM (Item.format? m)).map List.flatten

/-! ## The translation -/

/-- The specifier is that of a letter. -/
def IsMapped (c : Char) (unpadded : Bool) (letter : Char) : Prop :=
  ∃ f, (c, f, String.ofList (specifierText unpadded letter)) ∈ Field.table

/-- The items that a text in letters stands for. -/
inductive Translates : List Char → List Item → Prop
  | nil : Translates [] []
  | letter {c unpadded letter s items} : IsMapped c unpadded letter → Translates s items →
      Translates (c :: s) (.specifier unpadded letter :: items)
  | escaped {c s items} : Translates s items → Translates ('\\' :: c :: s) (.literal c :: items)
  | dangling : Translates ['\\'] []
  | plain {c s items} : c ≠ '\\' → (∀ e ∈ Field.table, e.1 ≠ c) → Translates s items →
      Translates (c :: s) (.literal c :: items)

/-! ## The table of the fields -/

theorem table_spec {c : Char} {f : Field} {d : String} (h : (c, f, d) ∈ Field.table) :
    Field.ofLetter? c = some f ∧ f.directive = d ∧ c ≠ '\\' := by
  have hall : ∀ e ∈ Field.table,
      Field.ofLetter? e.1 = some e.2.1 ∧ e.2.1.directive = e.2.2 ∧ e.1 ≠ '\\' := by
    decide +kernel
  exact hall _ h

theorem exists_mem_table {c : Char} {f : Field} (h : Field.ofLetter? c = some f) :
    ∃ d, (c, f, d) ∈ Field.table := by
  obtain ⟨⟨g, d⟩, hlookup, rfl⟩ := Option.map_eq_some_iff.1 h
  obtain ⟨before, after, htable, -⟩ := List.lookup_eq_some_iff.1 hlookup
  exact ⟨d, htable ▸ List.mem_append_right _ List.mem_cons_self⟩

/-- The directive of a field is a specifier, and that of no other field. -/
theorem exists_specifier (f : Field) : ∃ unpadded letter,
    f.directive.toList = specifierText unpadded letter ∧ letter.isAlpha = true ∧
      fieldOf? unpadded letter = some f := by
  cases f <;>
    first
    | exact ⟨true, _, rfl, rfl, rfl⟩
    | exact ⟨false, _, rfl, rfl, rfl⟩

/-! ## Reading what is written -/

theorem readItems_literal {c : Char} (hc : c ≠ '%') (s : List Char) :
    readItems (c :: s) = .literal c :: readItems s := by
  rw [readItems] <;> simp [hc]

theorem readItems_specifierText {letter : Char} (h : letter.isAlpha = true) (unpadded : Bool)
    (s : List Char) :
    readItems (specifierText unpadded letter ++ s) = .specifier unpadded letter :: readItems s := by
  have hitem : Item.ofLetter unpadded letter = .specifier unpadded letter := if_pos h
  rw [← hitem]
  cases unpadded with
  | true => rfl
  | false =>
    have hpercent : letter ≠ '%' := by rintro rfl; cases h
    have hdash : letter ≠ '-' := by rintro rfl; cases h
    change readItems ('%' :: letter :: s) = _
    rw [readItems] <;> simp [hpercent, hdash]

/-- The item that a part is written with. -/
def Part.item : Part → Item
  | .literal c => .literal c
  | .field f => (readItems f.directive.toList).headD .invalid

theorem item_field {f : Field} {unpadded : Bool} {letter : Char}
    (htext : f.directive.toList = specifierText unpadded letter) (h : letter.isAlpha = true) :
    (Part.field f).item = .specifier unpadded letter := by
  have hread := readItems_specifierText h unpadded []
  rw [List.append_nil] at hread
  rw [Part.item, htext, hread, List.headD_cons]

/-- **Parts do not combine**: a written pattern is read back part by part. -/
theorem readItems_directives (p : Pattern) : readItems p.directives = p.map Part.item := by
  induction p with
  | nil => rfl
  | cons part p ih =>
    rw [List.map_cons, ← ih]
    cases part with
    | literal c =>
      by_cases hc : c = '%'
      · subst hc
        rfl
      · have hwritten : directives (.literal c :: p) = c :: directives p := by
          change (if c = '%' then ['%', '%'] else [c]) ++ directives p = _
          rw [if_neg hc]
          rfl
        rw [hwritten, readItems_literal hc]
        rfl
    | field f =>
      obtain ⟨unpadded, letter, htext, hletter, -⟩ := exists_specifier f
      have hwritten : directives (.field f :: p) = f.directive.toList ++ directives p := rfl
      rw [hwritten, htext, readItems_specifierText hletter, item_field htext hletter]

/-- The text of a part for a moment. -/
def Part.format (m : Moment) : Part → List Char
  | .literal c => [c]
  | .field f => f.format m

theorem format?_item (m : Moment) (part : Part) : part.item.format? m = some (part.format m) := by
  cases part with
  | literal c => rfl
  | field f =>
    obtain ⟨unpadded, letter, htext, hletter, hfield⟩ := exists_specifier f
    rw [item_field htext hletter, Item.format?, hfield]
    rfl

/-- **The items of a pattern are known**, and a moment is written by them as by the pattern. -/
theorem formatItems_map_item (m : Moment) (p : Pattern) :
    formatItems m (p.map Part.item) = some (m.format p) := by
  have hparts : (p.map Part.item).mapM (Item.format? m) = some (p.map (Part.format m)) := by
    induction p with
    | nil => rfl
    | cons part p ih =>
      rw [List.map_cons, List.mapM_cons, format?_item, ih]
      rfl
  rw [formatItems, hparts, Option.map_some, ← List.flatMap_def]
  rfl

/-! ## The translation of a text -/

theorem parse_cons {c : Char} (hc : c ≠ '\\') (s : List Char) :
    parse (c :: s) = (Field.ofLetter? c).elim (.literal c) .field :: parse s := by
  rw [parse] <;> simp [hc]

/-- Every text stands for the items of its pattern. -/
theorem translates_parse (s : List Char) : Translates s ((parse s).map Part.item) := by
  fun_induction parse s with
  | case1 => exact .nil
  | case2 => exact .dangling
  | case3 c s ih => exact .escaped ih
  | case4 c s hdangling hescaped ih =>
    have hne : c ≠ '\\' := by
      rintro rfl
      cases s with
      | nil => exact hdangling rfl rfl
      | cons d s => exact hescaped d s rfl rfl
    cases hletter : Field.ofLetter? c with
    | none =>
      refine .plain hne (fun e he heq => ?_) ih
      rw [← heq, (table_spec he).1] at hletter
      cases hletter
    | some f =>
      obtain ⟨unpadded, letter, htext, halpha, -⟩ := exists_specifier f
      rw [List.map_cons, Option.elim_some, item_field htext halpha]
      refine .letter ⟨f, ?_⟩ ih
      obtain ⟨d, hmem⟩ := exists_mem_table hletter
      rwa [← htext, String.ofList_toList, (table_spec hmem).2.1]

/-- It stands for no other items. -/
theorem Translates.eq_parse {s : List Char} {items : List Item} (h : Translates s items) :
    items = (parse s).map Part.item := by
  induction h with
  | nil | dangling => rfl
  | escaped _ ih => rw [parse, List.map_cons, ← ih, Part.item]
  | letter hc _ ih =>
    obtain ⟨f, hmem⟩ := hc
    obtain ⟨hletter, hdirective, hne⟩ := table_spec hmem
    obtain ⟨unpadded, letter, htext, halpha, -⟩ := exists_specifier f
    rw [parse_cons hne, hletter, List.map_cons, ← ih, Option.elim_some, item_field htext halpha]
    rw [hdirective, String.toList_ofList] at htext
    obtain ⟨rfl, rfl⟩ := specifierText_inj htext
    rfl
  | @plain c s items hne hc _ ih =>
    have hletter : Field.ofLetter? c = none := by
      cases hf : Field.ofLetter? c with
      | none => rfl
      | some f =>
        obtain ⟨d, hmem⟩ := exists_mem_table hf
        exact absurd rfl (hc _ hmem)
    rw [parse_cons hne, hletter, List.map_cons, ← ih]
    rfl

/-- An item that a text in letters can stand for. -/
inductive Item.IsPlain : Item → Prop
  | literal {c} : IsPlain (.literal c)
  | specifier {c unpadded letter} : IsMapped c unpadded letter →
      IsPlain (.specifier unpadded letter)

theorem Translates.isPlain {s : List Char} {items : List Item} (h : Translates s items) :
    ∀ item ∈ items, item.IsPlain := by
  induction h with
  | nil | dangling => nofun
  | letter hc _ ih => exact List.forall_mem_cons.2 ⟨.specifier hc, ih⟩
  | escaped _ ih | plain _ _ _ ih => exact List.forall_mem_cons.2 ⟨.literal, ih⟩

/-- **A pattern in letters is translated without ambiguity**: the notation with percent signs is
    read as the items that the tokens stand for, one by one, so that no literals combine into a
    specifier.  Every specifier is that of a letter, and the items write all moments. -/
theorem directives_unambiguous (s : List Char) :
    (∀ items, Translates s items ↔ readItems (parse s).directives = items) ∧
      (∀ item ∈ readItems (parse s).directives, item.IsPlain) ∧
      ∀ m, formatItems m (readItems (parse s).directives) = some (m.format (parse s)) := by
  rw [readItems_directives]
  refine ⟨fun items => ⟨fun h => h.eq_parse.symm, ?_⟩, (translates_parse s).isPlain,
    fun m => formatItems_map_item m _⟩
  rintro rfl
  exact translates_parse s

example : readItems (parse ['%', '\\', 'd', 'd', '\\']).directives =
    [.literal '%', .literal 'd', .specifier false 'd'] := rfl

end Letterpress.Pattern
