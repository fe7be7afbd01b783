/-
  Which tags the check of a template knows of.

  The check looks for mentions in all texts of the content, and the tags that are replaced are read
  in another way.

  * `Json.HasText`: a text stands somewhere in a value.
  * `Told content key`: no list of tags and no globals make the check report the key as unused, and
    it is reported as undefined if nothing defines it.
  * `told_of_tags`: **the check knows of every tag before which nothing is open**, and in a clear
    text of every tag that is replaced, whatever the data is.
  * `untold_of_open`: braces that stand in what other braces have begun hide a tag from the check.
-/
import Letterpress.Proofs.Tag.Branch
import Letterpress.Validation.Tags

namespace Letterpress

open Text

/-! ## Texts of a value -/

/-- The text stands somewhere in the value. -/
inductive Json.HasText (s : String) : Json → Prop where
  | string : HasText s (.string s)
  | item {v : Json} {items : List Json} : v ∈ items → HasText s v → HasText s (.array items)
  | member {m : String × Json} {ms : List (String × Json)} : m ∈ ms → HasText s m.2 →
    HasText s (.object ms)

namespace Tag

theorem mem_itemMentions {key : String} {items : List Json} :
    key ∈ itemMentions items ↔ ∃ v ∈ items, key ∈ allMentions v := by
  induction items with
  | nil => simp [itemMentions]
  | cons v vs ih => rw [itemMentions, List.mem_append, ih, List.exists_mem_cons_iff]

theorem mem_memberMentions {key : String} {ms : List (String × Json)} :
    key ∈ memberMentions ms ↔ ∃ m ∈ ms, key ∈ allMentions m.2 := by
  induction ms with
  | nil => simp [memberMentions]
  | cons m ms ih => rw [memberMentions, List.mem_append, ih, List.exists_mem_cons_iff]

/-- What a text mentions, every value mentions in which the text stands. -/
theorem mem_mentions_of_hasText {content : Json} {s key : String} (hs : content.HasText s)
    (h : key ∈ mentionsIn s) : key ∈ mentions content := by
  rw [mentions, mem_distinct]
  induction hs with
  | string => rwa [allMentions]
  | item hv _ ih =>
    rw [allMentions, mem_itemMentions]
    exact ⟨_, hv, ih⟩
  | member hm _ ih =>
    rw [allMentions, mem_memberMentions]
    exact ⟨_, hm, ih⟩

theorem mem_keysIn {s key : String} :
    key ∈ keysIn s ↔ ∃ t ∈ items (pieces read? s.toList), t.key = key := by
  rw [keysIn, mem_distinct, tagsIn, ← map_item_located text 0]
  simp only [List.mem_map, exists_exists_and_eq_and]

end Tag

/-- The tags that are replaced when data is put into a text. -/
def Processor.replaced (p : Processor) (s : String) (data : Members) : List Tag :=
  items (pieces Tag.read? (Tag.Conditional.selectBranches (p.globals.merged data) s.toList))

namespace Validation

open Tag

/-! ## Reports -/

theorem mem_undefined {content : Json} {declared : List TagDefinition} {globals : Globals}
    {key : String} :
    key ∈ (checkTags content declared globals).undefined ↔
      key ∈ mentions content ∧ (∀ d ∈ declared, d.key ≠ key) ∧ globals.has key = false := by
  simp [checkTags]

theorem mem_unusedRequired {content : Json} {declared : List TagDefinition} {globals : Globals}
    {key : String} :
    key ∈ (checkTags content declared globals).unusedRequired ↔
      key ∉ mentions content ∧ ∃ d ∈ declared, d.required = true ∧ d.key = key := by
  simp only [checkTags, List.mem_map, List.mem_filter, Bool.and_eq_true, Bool.not_eq_true',
    List.contains_eq_mem, decide_eq_false_iff_not]
  constructor
  · rintro ⟨d, ⟨hd, hrequired, hunused⟩, rfl⟩
    exact ⟨hunused, d, hd, hrequired, rfl⟩
  · rintro ⟨hunused, d, hd, hrequired, rfl⟩
    exact ⟨d, ⟨hd, hrequired, hunused⟩, rfl⟩

/-- Whatever is declared and whatever globals there are, the check does not report the key as
    unused, and reports it as undefined if nothing defines it. -/
structure Told (content : Json) (key : String) : Prop where
  mentioned : key ∈ mentions content
  used : ∀ declared globals, key ∉ (checkTags content declared globals).unusedRequired
  undefined : ∀ (declared : List TagDefinition) (globals : Globals),
    (∀ d ∈ declared, d.key ≠ key) → globals.has key = false →
      key ∈ (checkTags content declared globals).undefined

theorem told_of_mentioned {content : Json} {key : String} (h : key ∈ mentions content) :
    Told content key where
  mentioned := h
  used _ _ hunused := (mem_unusedRequired.1 hunused).1 h
  undefined _ _ hdeclared hglobal := mem_undefined.2 ⟨h, hdeclared, hglobal⟩

/-! ## Tags and what the check knows of them -/

section

variable {content : Json} {s : String} (hs : content.HasText s)
include hs

/-- A key that follows braces before which nothing is open is known. -/
theorem told_of_nothingOpen {before rest : List Char} {key : String}
    (htext : s.toList = before ++ (opening ++ (key.toList ++ rest))) (h : NothingOpen before)
    (hkey : IsKey key.toList) (hrest : Stopped rest) (helse : key ≠ "else") : Told content key :=
  told_of_mentioned
    (mem_mentions_of_hasText hs (mem_mentionsIn_of_nothingOpen htext h hkey hrest helse))

theorem told_of_read {before after rest : List Char} {t : Tag} (htext : s.toList = before ++ after)
    (hread : Tag.read? after = some (t, rest)) (h : NothingOpen before) (helse : t.key ≠ "else") :
    Told content t.key := by
  obtain ⟨hkey, d, tail, hd, rfl⟩ := read?_eq_some hread
  exact told_of_nothingOpen hs htext h hkey (stopped_cons.2 hd) helse

/-- In a clear text every tag is known that is found in what is left of it. -/
theorem told_of_cut (hclear : Clear s.toList) {o : List Char} (hcut : Cut s.toList o) {t : Tag}
    (ht : t ∈ items (pieces Tag.read? o)) (helse : t.key ≠ "else") : Told content t.key := by
  obtain ⟨after, rest, hsuffix, hread⟩ := exists_read_of_mem_items ht
  obtain ⟨hkey, d, tail, hd, rfl⟩ := read?_eq_some hread
  have hkept : opening ++ (t.key.toList ++ [d]) <:+: o :=
    List.IsInfix.trans ⟨[], tail, by simp⟩ hsuffix.isInfix
  obtain ⟨before, behind, htext⟩ := hcut.infix_of_clear hclear hkey.unstopped hkept
  have htext : s.toList = before ++ (opening ++ (t.key.toList ++ d :: behind)) := by
    rw [← htext]
    simp
  have hopen : NothingOpen before := hclear before _ htext
  exact told_of_nothingOpen hs htext hopen hkey (stopped_cons.2 hd) helse

/-- **The check knows of every tag before which nothing is open**: it does not report the key as
    unused, and reports it as undefined if nothing defines it.  A tag before which something is
    open ends a mention that has begun before.  In a clear text the check knows of all tags, and of
    all that are replaced once the regions are decided, whatever the data is. -/
theorem told_of_tags :
    (∀ before after rest t, s.toList = before ++ after → Tag.read? after = some (t, rest) →
      (NothingOpen before → t.key ≠ "else" → Told content t.key) ∧
      (¬ NothingOpen before → ∃ m ∈ items (pieces readMention? s.toList),
        '{' :: t.key.toList <:+ m.toList)) ∧
    (Clear s.toList →
      (∀ key ∈ keysIn s, key ≠ "else" → Told content key) ∧
      ∀ (p : Processor) (data : Members), ∀ t ∈ p.replaced s data, t.key ≠ "else" →
        Told content t.key) := by
  refine ⟨fun before after rest t htext hread => ⟨told_of_read hs htext hread, fun hopen => ?_⟩,
    fun hclear => ⟨fun key hkey helse => ?_, fun p data t ht helse => ?_⟩⟩
  · obtain ⟨hkey, d, tail, hd, rfl⟩ := read?_eq_some hread
    rw [htext]
    exact swallowed_of_open hopen hkey.unstopped (stopped_cons.2 hd)
  · obtain ⟨t, ht, rfl⟩ := mem_keysIn.1 hkey
    exact told_of_cut hs hclear (Cut.refl _) ht helse
  · exact told_of_cut hs hclear (cut_selectBranches _ _) ht helse

end

/-- A tag with a pipe, and one in a region that the data selects, in two texts of a value. -/
theorem told_of_tags_in_items :
    let greeting := "Dear \x7b\x7bname|upper\x7d\x7d"
    let offer := "\x7b\x7b#if vip\x7d\x7dYou save \x7b\x7bsaving\x7d\x7d\x7b\x7b/if\x7d\x7d."
    let content : Json := .array [.object [("content", .string greeting)], .string offer]
    Told content "name" ∧ Told content "saving" := by
  intro greeting offer content
  have hgreeting : content.HasText greeting :=
    .item List.mem_cons_self (.member List.mem_cons_self .string)
  have hoffer : content.HasText offer := .item (List.mem_cons_of_mem _ List.mem_cons_self) .string
  have hclear : Clear greeting.toList ∧ Clear offer.toList := by decide +kernel
  refine ⟨((told_of_tags hgreeting).2 hclear.1).1 "name" (by decide) (by decide), ?_⟩
  have hreplaced :
      ⟨"saving", ""⟩ ∈ Processor.replaced ⟨[], .builtin⟩ offer [("vip", .bool true)] := by
    decide
  exact ((told_of_tags hoffer).2 hclear.2).2 _ _ _ hreplaced (by decide)

/-- **Braces in what other braces have begun hide a tag**: of the tag `name` in three braces the
    check reports that it is not used, and that `{name` is not defined. -/
theorem untold_of_open :
    let s := "\x7b\x7b\x7bname\x7d\x7d\x7d"
    keysIn s = ["name"] ∧ mentions (.string s) = ["\x7bname"] ∧
    Processor.run ⟨[], .builtin⟩ s [("name", .string "Ann")] = "\x7bAnn\x7d" ∧
    checkTags (.string s) [.ofKey "name" true] [] = ⟨["\x7bname"], ["name"]⟩ := by
  decide

end Validation

end Letterpress
