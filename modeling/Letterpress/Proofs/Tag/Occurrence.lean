/-
  The tags of a text.

  * `Pipe.ReadFrom part p`: the pipe that a part of the text between two bars means;
    `pipesOf_spec` says that the pipes of a tag are those of its parts.
  * `Exact s ts`: the tags `ts` stand in `s` one after the other where their offsets say, and no tag
    starts outside of them.
  * `tags_exact`: **the tags that are found in a text are exact**, and filling in a text without
    regions replaces them by their values and changes nothing else.
-/
import Letterpress.Proofs.Tag.Branch
import Mathlib.Data.List.Forall2

namespace Letterpress.Tag

open Text

/-! ## Single tags -/

theorem text_ne_nil (t : Tag) : t.text ≠ [] := by
  simp [text, opening]

theorem readsWhole_read? : ReadsWhole text read? where
  nonempty _ := text_ne_nil _
  whole h := (read?_eq_some_iff.1 h).2

/-- The key of a tag takes all characters of keys behind the braces. -/
theorem Canonical.takeWhile_key {t : Tag} (h : t.Canonical) :
    (t.text.drop opening.length).takeWhile isKeyChar = t.key.toList := by
  have hdrop : t.text.drop opening.length = t.key.toList ++ (t.pipeText.toList ++ closing) := by
    rw [text, List.append_assoc, List.append_assoc, List.drop_left]
  -- a bar or a brace follows the key, and neither of them can be in one
  have hstop : ∀ c ∈ (t.pipeText.toList ++ closing).head?, isKeyChar c = false := by
    rcases h.pipes with hpipes | ⟨body, -, -, hpipes⟩ <;> rw [hpipes] <;> simp [closing, isKeyChar]
  have hspan := span_append h.key.chars hstop
  rw [List.span_eq_takeWhile_dropWhile, Prod.mk.injEq] at hspan
  rw [hdrop, hspan.1]

/-! ## Pipes -/

/-- The parts of a text between the separators, none of which has a separator in it. -/
structure Divides (sep : Char) (s : List Char) (parts : List (List Char)) : Prop where
  nonempty : parts ≠ []
  whole : joinWith [sep] parts = s
  apart : ∀ part ∈ parts, sep ∉ part

theorem divides_splitOn (sep : Char) (s : List Char) : Divides sep s (splitOn sep s) where
  nonempty := splitOn_ne_nil sep s
  whole := joinWith_splitOn sep s
  apart _ := notMem_of_mem_splitOn

/-- What a part between two bars means as a pipe.  Its name is trimmed, its argument is not. -/
inductive Pipe.ReadFrom : List Char → Pipe → Prop where
  /-- Without a colon the part is a name. -/
  | name (part : List Char) : ':' ∉ part → ReadFrom part ⟨String.ofList (trim part), none⟩
  /-- The first colon divides the name from the argument. -/
  | applied (name argument : List Char) : ':' ∉ name →
    ReadFrom (name ++ ':' :: argument)
      ⟨String.ofList (trim name), some (String.ofList argument)⟩

theorem Pipe.readFrom_parse (part : List Char) : ReadFrom part (Pipe.parse part) := by
  rw [Pipe.parse]
  cases h : splitOnce ':' part with
  | none => exact .name part (notMem_of_splitOnce_eq_none h)
  | some cut =>
    obtain ⟨name, argument⟩ := cut
    rw [splitOnce_eq_some h]
    exact .applied name argument (notMem_of_splitOnce h)

/-- The pipes are those of the parts between the bars that are not empty. -/
theorem pipesOf_spec (s : List Char) :
    ∃ parts, Divides '|' s parts ∧
      List.Forall₂ Pipe.ReadFrom (parts.filter (· ≠ [])) (pipesOf s) := by
  refine ⟨splitOn '|' s, divides_splitOn '|' s, ?_⟩
  have hsame : (splitOn '|' s).filter (fun part => !part.isEmpty) =
      (splitOn '|' s).filter (· ≠ []) :=
    List.filter_congr fun part _ => by cases part <;> rfl
  rw [pipesOf, hsame, List.forall₂_map_right_iff, List.forall₂_same]
  exact fun part _ => Pipe.readFrom_parse part

/-! ## All tags of a text -/

/-- The tags of a text with their offsets: what they are, and where. -/
structure Exact (s : String) (ts : List (Located Tag)) : Prop where
  canonical : ∀ t ∈ ts, t.item.Canonical
  /-- The key is the longest run of its characters behind the braces. -/
  longest : ∀ t ∈ ts, (t.item.text.drop opening.length).takeWhile isKeyChar = t.item.key.toList
  /-- The pipes are those of the parts between the bars that are not empty. -/
  pipes : ∀ t ∈ ts, ∃ parts, Divides '|' t.item.pipeText.toList parts ∧
    List.Forall₂ Pipe.ReadFrom (parts.filter (· ≠ [])) t.item.pipes
  /-- The text has the tag between the two offsets. -/
  stands : ∀ t ∈ ts, ∃ before after, s.toList = before ++ (t.item.text ++ after) ∧
    t.start = utf8Length before ∧ t.stop text = utf8Length (before ++ t.item.text)
  /-- The tags ascend and do not overlap. -/
  ordered : ts.Pairwise fun t t' => t.stop text ≤ t'.start
  /-- Wherever a tag is written, it starts inside of one of them. -/
  complete : ∀ t before after, Canonical t → s.toList = before ++ (t.text ++ after) →
    ∃ t' ∈ ts, t'.Covers text (utf8Length before)

theorem exact_tagsIn (s : String) : Exact s (tagsIn s) where
  canonical t ht := by
    obtain ⟨_, _, -, -, hread⟩ := exists_read_of_mem_located readsWhole_read? ht
    exact (read?_eq_some_iff.1 hread).1
  longest t ht := by
    obtain ⟨_, _, -, -, hread⟩ := exists_read_of_mem_located readsWhole_read? ht
    exact (read?_eq_some_iff.1 hread).1.takeWhile_key
  pipes t _ := pipesOf_spec t.item.pipeText.toList
  stands _ ht := stands_of_mem_located readsWhole_read? ht
  ordered := (replaced_located readsWhole_read? (fun _ => []) 0 s.toList).ordered
  complete t before after ht hs := by
    by_contra hout
    have hout' : ∀ t' ∈ tagsIn s, ¬ t'.Covers text (0 + utf8Length before) := by
      rw [Nat.zero_add]
      exact fun t' ht' hcovers => hout ⟨t', ht', hcovers⟩
    have hne : t.text ++ after ≠ [] := by simp [text_ne_nil]
    have hnone := read?_eq_none_of_outside readsWhole_read? hs hne hout'
    rw [read?_text ht after] at hnone
    cases hnone

/-! ## Filling in -/

/-- A text without regions is not changed by deciding them. -/
theorem selectBranches_eq_self {s : String} (h : Conditional.conditionalsIn s = [])
    (data : Members) : Conditional.selectBranches data s.toList = s.toList := by
  have hreplaced := replaced_located Conditional.readsWhole_read?
    (fun c => (Conditional.branch data c).toList) 0 s.toList
  rw [Conditional.conditionalsIn] at h
  rw [h] at hreplaced
  exact hreplaced.eq_of_nil

theorem run_of_no_regions {s : String} (h : Conditional.conditionalsIn s = []) (p : Processor)
    (data : Members) :
    (p.run s data).toList =
      Processor.replaceTags p.formatters (p.globals.merged data) s.toList := by
  rw [Processor.run, String.toList_ofList, selectBranches_eq_self h]

/-- **The tags that are found are exact**: each is a canonical tag that stands where its offsets
    say, they ascend without overlapping, and no tag starts outside of them.  To fill in a text
    without regions is to put the value of each tag in its place: nothing outside of them changes,
    and what is put in is not looked at again. -/
theorem tags_exact (s : String) :
    Exact s (tagsIn s) ∧
    ∀ (p : Processor) (data : Members), Conditional.conditionalsIn s = [] →
      Replaced text
        (fun t => (Processor.applyPipes p.formatters (Json.resolve t.key (p.globals.merged data))
          t.pipes).toList)
        0 s.toList (tagsIn s) (p.run s data).toList := by
  refine ⟨exact_tagsIn s, fun p data h => ?_⟩
  rw [run_of_no_regions h]
  exact replaced_located readsWhole_read? _ 0 s.toList

/-- Behind braces that open no tag one is found, and the braces in a value open none. -/
theorem tags_exact_of_unfinished :
    let s := "é\x7b\x7b \x7b\x7b\x7ba|default: x:y|\x7d\x7d\x7b\x7bb|\x7d\x7d\x7b\x7bb\x7d\x7d"
    let p : Processor := ⟨[], Formatters.builtin⟩
    let data : Members := [("b", .string "\x7b\x7ba\x7d\x7d")]
    Conditional.conditionalsIn s = [] ∧
      (tagsIn s).map (fun t => (t.start, t.stop text, t.item.pipes)) =
        [(6, 25, [⟨"default", some " x:y"⟩]), (31, 36, [])] ∧
      p.run s data = "é\x7b\x7b \x7b x:y\x7b\x7bb|\x7d\x7d\x7b\x7ba\x7d\x7d" ∧ Exact s (tagsIn s) ∧
      Replaced text
        (fun t => (Processor.applyPipes p.formatters (Json.resolve t.key (p.globals.merged data))
          t.pipes).toList)
        0 s.toList (tagsIn s) (p.run s data).toList := by
  intro s p data
  have hregions : Conditional.conditionalsIn s = [] := by decide +kernel
  exact ⟨hregions, by decide +kernel, by decide +kernel, (tags_exact s).1,
    (tags_exact s).2 p data hregions⟩

end Letterpress.Tag
