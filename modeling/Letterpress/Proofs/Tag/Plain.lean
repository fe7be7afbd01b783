/-
  Texts whose tags have no pipes.

  Short texts such as subject lines are filled in by a search of their own, for tags without pipes
  only.

  * `readPlain?_eq_some_iff`: a key is read exactly where it is written between braces.
  * `pieces_readPlain?`: in a text whose tags have no pipes both searches find the same.
  * `filled missing data key`: the value of a key, or what stands in the place of a missing one.
  * `mergePlain_and_run_agree`: **both ways to fill in such a text agree**, but for the tags without
    a value, which one of them leaves and the other one drops.
-/
import Letterpress.Proofs.Tag.Occurrence

namespace Letterpress.Tag

open Text

/-! ## Tags without pipes -/

/-- The tag without pipes as it is written. -/
def plainText (key : String) : List Char := opening ++ key.toList ++ closing

/-- The tags without pipes of a text, by their keys. -/
def plainTagsIn (s : String) : List (Located String) :=
  located plainText 0 (pieces readPlain? s.toList)

theorem readPlain?_eq_some_iff {s rest : List Char} {key : String} :
    readPlain? s = some (key, rest) ↔ IsKey key.toList ∧ s = plainText key ++ rest := by
  constructor
  · intro h
    obtain ⟨afterOpening, hopening, h⟩ := Option.bind_eq_some_iff.1 h
    obtain ⟨⟨key, afterKey⟩, hkey, h⟩ := Option.bind_eq_some_iff.1 h
    obtain ⟨afterClosing, hclosing, h⟩ := Option.bind_eq_some_iff.1 h
    cases h
    obtain ⟨hisKey, hafterOpening⟩ := readKey?_eq_some hkey
    refine ⟨hisKey, ?_⟩
    calc s = opening ++ afterOpening := afterStart?_eq_some_iff.1 hopening
      _ = opening ++ (key.toList ++ (closing ++ rest)) := by
          rw [hafterOpening, afterStart?_eq_some_iff.1 hclosing]
      _ = plainText key ++ rest := by simp [plainText]
  · rintro ⟨hkey, rfl⟩
    have hopen : afterStart? opening (plainText key ++ rest) =
        some (key.toList ++ (closing ++ rest)) := afterStart?_eq_some_iff.2 (by simp [plainText])
    have hhead : ∀ c ∈ (closing ++ rest).head?, isKeyChar c = false := by simp [closing, isKeyChar]
    have hclose : afterStart? closing (closing ++ rest) = some rest :=
      afterStart?_eq_some_iff.2 rfl
    simp [readPlain?, hopen, readKey?_append hkey hhead, hclose]

theorem readsWhole_readPlain? : ReadsWhole plainText readPlain? where
  nonempty _ := by simp [plainText, opening]
  whole h := (readPlain?_eq_some_iff.1 h).2

/-- What is read as a tag without pipes is read as a tag. -/
theorem readPlain?_eq_none {s : List Char} (h : read? s = none) : readPlain? s = none := by
  rw [Option.eq_none_iff_forall_not_mem]
  rintro ⟨key, rest⟩ hread
  obtain ⟨hkey, rfl⟩ := readPlain?_eq_some_iff.1 hread
  have htext : plainText key = Tag.text ⟨key, ""⟩ := by simp [plainText, text]
  have hcanonical : Canonical ⟨key, ""⟩ := ⟨hkey, .inl rfl⟩
  rw [htext, read?_text hcanonical rest] at h
  cases h

/-! ## Texts with such tags only -/

section

variable {s : String} (h : ∀ t ∈ tagsIn s, t.item.text = plainText t.item.key)
include h

theorem text_of_mem_items {t : Tag} (ht : t ∈ items (pieces read? s.toList)) :
    plainText t.key = t.text := by
  rw [← map_item_located text 0] at ht
  obtain ⟨l, hl, rfl⟩ := List.mem_map.1 ht
  exact (h l hl).symm

/-- **Both searches find the same.** -/
theorem pieces_readPlain? :
    pieces readPlain? s.toList = (pieces read? s.toList).map (Piece.map Tag.key) := by
  refine pieces_eq_map readsWhole_read? (fun _ => readPlain?_eq_none) fun t ht rest hread => ?_
  rw [readPlain?_eq_some_iff, text_of_mem_items h ht]
  exact ⟨(read?_eq_some_iff.1 hread).1.key, rfl⟩

theorem plainTagsIn_eq : plainTagsIn s = (tagsIn s).map fun t => ⟨t.item.key, t.start⟩ := by
  rw [plainTagsIn, pieces_readPlain? h, located_map fun t ht => text_of_mem_items h ht]
  rfl

/-- The keys that the search for tags without pipes finds. -/
theorem items_readPlain? :
    items (pieces readPlain? s.toList) = (tagsIn s).map fun t => t.item.key := by
  rw [pieces_readPlain? h, items_map, ← map_item_located text 0, List.map_map]
  rfl

theorem plainKeysIn_eq : plainKeysIn s = keysIn s := by
  rw [plainKeysIn, items_readPlain? h, keysIn]

end

/-! ## Filling in -/

/-- The value of a key, or what stands in the place of a missing one. -/
def filled (missing : String → List Char) (data : Members) (key : String) : List Char :=
  (Json.resolve key data).elim (missing key) fun v => v.displayText.toList

theorem filled_of_isSome {data : Members} {key : String} (h : (Json.resolve key data).isSome)
    (missing missing' : String → List Char) :
    filled missing data key = filled missing' data key := by
  obtain ⟨v, hv⟩ := Option.isSome_iff_exists.1 h
  rw [filled, filled, hv, Option.elim_some, Option.elim_some]

theorem filled_of_eq_none {data : Members} {key : String} (h : Json.resolve key data = none)
    (missing : String → List Char) : filled missing data key = missing key := by
  rw [filled, h, Option.elim_none]

theorem mergePlainTag_eq (data : Members) : mergePlainTag data = filled plainText data := by
  funext key
  rw [mergePlainTag, filled]
  cases Json.resolve key data <;> rfl

theorem mergePlain_eq (globals : Globals) (s : String) (data : Members) :
    (mergePlain globals s data).toList =
      substitute (filled plainText (globals.merged data)) (pieces readPlain? s.toList) := by
  rw [mergePlain, String.toList_ofList, mergePlainTag_eq]

/-- A tag without pipes stands for its value, or for nothing. -/
theorem resolveTag_eq {t : Tag} (h : plainText t.key = t.text) (formatters : Formatters)
    (data : Members) :
    (Processor.resolveTag formatters data t).toList = filled (fun _ => []) data t.key := by
  obtain ⟨key, pipeText⟩ := t
  obtain rfl : pipeText = "" := by simpa [plainText, text] using h
  have hpipes : Tag.pipes ⟨key, ""⟩ = [] := rfl
  rw [Processor.resolveTag, hpipes, filled]
  cases Json.resolve key data <;> rfl

theorem run_of_plain {s : String} (hregions : Conditional.conditionalsIn s = [])
    (hplain : ∀ t ∈ tagsIn s, t.item.text = plainText t.item.key) (p : Processor)
    (data : Members) :
    (p.run s data).toList =
      substitute (filled (fun _ => []) (p.globals.merged data))
        (pieces readPlain? s.toList) := by
  rw [run_of_no_regions hregions, Processor.replaceTags, pieces_readPlain? hplain, substitute_map]
  exact substitute_congr fun t ht => resolveTag_eq (text_of_mem_items hplain ht) _ _

/-- What is left of a missing key makes no difference if all keys have a value. -/
theorem mergePlain_eq_run {s : String} (hregions : Conditional.conditionalsIn s = [])
    (hplain : ∀ t ∈ tagsIn s, t.item.text = plainText t.item.key) {p : Processor} {data : Members}
    (hall : ∀ t ∈ tagsIn s, (Json.resolve t.item.key (p.globals.merged data)).isSome) :
    mergePlain p.globals s data = p.run s data := by
  rw [← String.toList_inj, mergePlain_eq, run_of_plain hregions hplain]
  refine substitute_congr fun key hkey => ?_
  rw [items_readPlain? hplain] at hkey
  obtain ⟨t, ht, rfl⟩ := List.mem_map.1 hkey
  exact filled_of_isSome (hall t ht) _ _

/-- A text without any value is left as it is. -/
theorem mergePlain_eq_self {s : String}
    (hplain : ∀ t ∈ tagsIn s, t.item.text = plainText t.item.key) {globals : Globals}
    {data : Members}
    (hnone : ∀ t ∈ tagsIn s, Json.resolve t.item.key (globals.merged data) = none) :
    mergePlain globals s data = s := by
  have hself : ∀ key ∈ items (pieces readPlain? s.toList),
      filled plainText (globals.merged data) key = plainText key := by
    rw [items_readPlain? hplain]
    exact List.forall_mem_map.2 fun t ht => filled_of_eq_none (hnone t ht) plainText
  rw [← String.toList_inj, mergePlain_eq, substitute_congr hself,
    substitute_text readsWhole_readPlain?]

/-- **Both ways to fill in agree** on a text without regions whose tags have no pipes.  They find
    the same tags at the same places and put the values of their keys there; of a tag whose key has
    no value, one leaves the text and the other one nothing.  So they give the same text if every
    key has a value, and the short one gives the text itself if none has.  The keys are the same. -/
theorem mergePlain_and_run_agree (p : Processor) (s : String) (data : Members)
    (hregions : Conditional.conditionalsIn s = [])
    (hplain : ∀ t ∈ tagsIn s, t.item.text = plainText t.item.key) :
    let merged := p.globals.merged data
    plainTagsIn s = (tagsIn s).map (fun t => ⟨t.item.key, t.start⟩) ∧
    Replaced plainText (filled plainText merged) 0 s.toList (plainTagsIn s)
      (mergePlain p.globals s data).toList ∧
    Replaced plainText (filled (fun _ => []) merged) 0 s.toList (plainTagsIn s)
      (p.run s data).toList ∧
    ((∀ t ∈ tagsIn s, (Json.resolve t.item.key merged).isSome) →
      mergePlain p.globals s data = p.run s data) ∧
    ((∀ t ∈ tagsIn s, Json.resolve t.item.key merged = none) → mergePlain p.globals s data = s) ∧
    plainKeysIn s = keysIn s := by
  have hreplaced (f : String → List Char) : Replaced plainText f 0 s.toList (plainTagsIn s)
      (substitute f (pieces readPlain? s.toList)) := replaced_located readsWhole_readPlain? f 0 _
  refine ⟨plainTagsIn_eq hplain, ?_, ?_, mergePlain_eq_run hregions hplain,
    mergePlain_eq_self hplain, plainKeysIn_eq hplain⟩
  · rw [mergePlain_eq]
    exact hreplaced _
  · rw [run_of_plain hregions hplain]
    exact hreplaced _

/-- One key with a value, which opens a tag again, and one without; then both with one, and none. -/
theorem mergePlain_and_run_agree_of_missing :
    let s := "\x7b\x7b\x7bto.0\x7d\x7d, \x7b\x7b \x7b\x7bfrom\x7d\x7d"
    let p : Processor := ⟨Globals.registerValue "from" .null [], []⟩
    let onlyTo : Members := [("to", .array [.string "\x7b\x7bfrom\x7d\x7d"])]
    Conditional.conditionalsIn s = [] ∧
      (∀ t ∈ tagsIn s, t.item.text = plainText t.item.key) ∧
      (mergePlain [] s onlyTo = "\x7b\x7b\x7bfrom\x7d\x7d, \x7b\x7b \x7b\x7bfrom\x7d\x7d" ∧
        Processor.run ⟨[], []⟩ s onlyTo = "\x7b\x7b\x7bfrom\x7d\x7d, \x7b\x7b " ∧
        Replaced plainText (filled plainText onlyTo) 0 s.toList (plainTagsIn s)
          (mergePlain [] s onlyTo).toList ∧
        Replaced plainText (filled (fun _ => []) onlyTo) 0 s.toList (plainTagsIn s)
          (Processor.run ⟨[], []⟩ s onlyTo).toList) ∧
      mergePlain p.globals s onlyTo = p.run s onlyTo ∧ mergePlain [] s [] = s := by
  intro s p onlyTo
  have hregions : Conditional.conditionalsIn s = [] := by decide +kernel
  have hplain : ∀ t ∈ tagsIn s, t.item.text = plainText t.item.key := by decide +kernel
  obtain ⟨-, hmerge, hrun, -⟩ := mergePlain_and_run_agree ⟨[], []⟩ s onlyTo hregions hplain
  obtain ⟨-, -, -, hall, -⟩ := mergePlain_and_run_agree p s onlyTo hregions hplain
  obtain ⟨-, -, -, -, hnone, -⟩ := mergePlain_and_run_agree ⟨[], []⟩ s [] hregions hplain
  exact ⟨hregions, hplain, ⟨by decide +kernel, by decide +kernel, hmerge, hrun⟩,
    hall (by decide +kernel), hnone (by decide +kernel)⟩

end Letterpress.Tag
