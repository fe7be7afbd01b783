/-
  Tags that are given alone.

  A tag in a text is found by what can stand in it, character by character.  A tag that is given
  alone is read by another way: its braces are taken off, and what is left is divided at the first
  bar.

  * `printed key ps`: a tag as it is written from its key and its pipes.
  * `Canonical.parseTag?_text`: a tag that is read in a text is read when it stands alone, too.
  * `tagsIn_text`: a text that is a tag has that tag and no other.
  * `both_readings_agree`: **both ways to read a tag agree** on every tag that is found in a text,
    and both read the key and the pipes back that a tag is printed from, if the key is not empty.
  * `empty_key_is_lost`: without a key there is no tag.
-/
import Letterpress.Proofs.Tag.Occurrence

namespace Letterpress.Tag

open Text

/-- A tag as it is written from its key and its pipes. -/
def printed (key : String) (ps : List Pipe) : List Char :=
  opening ++ key.toList ++ pipesText ps ++ closing

theorem text_ofPipes (key : String) (ps : List Pipe) : (ofPipes key ps).text = printed key ps := by
  rw [Tag.text, ofPipes, String.toList_ofList, printed]

/-! ## Reading a tag alone -/

/-- The bar before the first pipe makes no difference. -/
theorem pipesOf_cons_bar (s : List Char) : pipesOf ('|' :: s) = pipesOf s := by
  have hsplit : splitOn '|' ('|' :: s) = [] :: splitOn '|' s := by rw [splitOn, if_pos rfl]
  rw [pipesOf, hsplit, List.filter_cons_of_neg (by decide), pipesOf]

/-- No blanks stand around the braces. -/
theorem trim_text (t : Tag) : trim t.text = t.text := by
  obtain ⟨inner, hinner⟩ : ∃ inner, t.text = '{' :: (inner ++ ['}']) :=
    ⟨'{' :: (t.key.toList ++ t.pipeText.toList ++ ['}']), by simp [Tag.text, opening, closing]⟩
  rw [hinner, trim, trimStart_cons (by decide), ← List.cons_append,
    trimEnd_append_cons (by decide)]
  rfl

namespace Canonical

variable {t : Tag} (h : t.Canonical)
include h

theorem closing_notMem : '}' ∉ t.key.toList ++ t.pipeText.toList := by
  rw [List.mem_append, not_or]
  refine ⟨h.key.notMem (by decide), ?_⟩
  rcases h.pipes with hpipes | ⟨body, -, hbody, hpipes⟩
  · rw [hpipes]
    exact List.not_mem_nil
  · rw [hpipes, List.mem_cons, not_or]
    exact ⟨by decide, hbody⟩

/-- Between the braces there are the key and the pipes, and no more braces are taken off. -/
theorem inside_text :
    trimEndOf (· = '}') (trimStartOf (· = '{') t.text) = t.key.toList ++ t.pipeText.toList := by
  have hstart : trimStartOf (· = '{') (opening ++ (t.key.toList ++ t.pipeText.toList ++ closing)) =
      t.key.toList ++ t.pipeText.toList ++ closing := by
    refine trimStartOf_append (List.all_eq_true.1 rfl) fun c hc => ?_
    obtain ⟨x, xs, hx⟩ := List.exists_cons_of_ne_nil h.key.nonempty
    obtain rfl : x = c := by simpa [hx] using hc
    have hk : isKeyChar x = true := h.key.chars x (hx ▸ List.mem_cons_self)
    refine decide_eq_false ?_
    rintro rfl
    cases hk
  have hend : trimEndOf (· = '}') (t.key.toList ++ t.pipeText.toList ++ closing) =
      t.key.toList ++ t.pipeText.toList := by
    refine trimEndOf_append (List.all_eq_true.1 rfl) fun c hc => decide_eq_false ?_
    rintro rfl
    exact h.closing_notMem (List.mem_of_mem_getLast? hc)
  have htext : t.text = opening ++ (t.key.toList ++ t.pipeText.toList ++ closing) := by
    simp [Tag.text]
  rw [htext, hstart, hend]

/-- **A tag that stands alone** is read as its key and its pipes. -/
theorem parseTag?_text : parseTag? t.text = some (t.key, t.pipes) := by
  have hkey : trim t.key.toList = t.key.toList :=
    trim_of_notBlank fun c hc => isBlank_eq_false (h.key.chars c hc)
  have hbar : '|' ∉ t.key.toList := h.key.notMem (by decide)
  rw [parseTag?, trim_text, h.inside_text, Tag.pipes]
  rcases h.pipes with hpipes | ⟨body, -, -, hpipes⟩
  · rw [hpipes, List.append_nil, splitOnce_eq_none hbar]
    simp [hkey, h.key.nonempty]
  · rw [hpipes, splitOnce_append_cons hbar, pipesOf_cons_bar]
    simp [hkey, h.key.nonempty]

/-- A text that is a tag has that tag and no other. -/
theorem tagsIn_text : tagsIn (String.ofList t.text) = [⟨t, 0⟩] := by
  have hread : read? (t.text ++ []) = some (t, []) := read?_text h []
  have hlocated := located_item readsWhole_read? hread 0
  rw [List.append_nil, pieces_nil] at hlocated
  rw [tagsIn, String.toList_ofList, hlocated]
  rfl

end Canonical

/-! ## Both ways -/

/-- **Both ways to read a tag agree.**  A tag that is found in a text is read alone as the same key
    and the same pipes; and a key that is not empty and pipes that can be printed are read back from
    the printed tag, which is one tag from its first brace to its last one. -/
theorem both_readings_agree :
    (∀ (s : String), ∀ t ∈ tagsIn s, parseTag? t.item.text = some (t.item.key, t.item.pipes)) ∧
    ∀ (key : String) (ps : List Pipe), IsKey key.toList → (∀ p ∈ ps, p.Printable) →
      parseTag? (printed key ps) = some (key, ps) ∧
      ∃ t, tagsIn (String.ofList (printed key ps)) = [⟨t, 0⟩] ∧
        t.text = printed key ps ∧ t.key = key ∧ t.pipes = ps := by
  refine ⟨fun s t ht => ((exact_tagsIn s).canonical t ht).parseTag?_text, fun key ps hkey hps => ?_⟩
  have hcanonical := canonical_ofPipes hps hkey
  have hpipes : (ofPipes key ps).pipes = ps := pipes_ofPipes hps
  rw [← text_ofPipes]
  refine ⟨?_, ofPipes key ps, hcanonical.tagsIn_text, rfl, rfl, hpipes⟩
  rw [hcanonical.parseTag?_text, hpipes]
  rfl

/-- Empty segments, blanks, colons and opening braces in the pipes, behind braces that open no
    tag. -/
theorem both_readings_agree_of_odd_pipes :
    let s := "\x7b\x7b \x7b\x7b\x7bname|| default : a:\x7b b \x7d\x7d"
    let t : Tag := ⟨"name", "|| default : a:\x7b b "⟩
    let ps : List Pipe := [⟨"de fault", some " a:\x7b b "⟩, ⟨"", some ""⟩, ⟨"\x7b", none⟩]
    ((tagsIn s).map (·.item) = [t] ∧ parseTag? t.text = some (t.key, t.pipes)) ∧
      IsKey "user.0".toList ∧ (∀ p ∈ ps, p.Printable) ∧
      parseTag? (printed "user.0" ps) = some ("user.0", ps) := by
  intro s t ps
  have htags : (tagsIn s).map (·.item) = [t] := by decide +kernel
  obtain ⟨l, hl, hitem⟩ := List.mem_map.1 (htags ▸ List.mem_singleton_self t)
  have hkey : IsKey "user.0".toList := by decide +kernel
  have hfree {s cs : List Char} (h : s.all (· ∉ cs) = true) : ∀ c ∈ s, c ∉ cs := fun c hc =>
    of_decide_eq_true (List.all_eq_true.1 h c hc)
  have hps : ∀ p ∈ ps, p.Printable := by
    simp only [ps, List.forall_mem_cons]
    refine ⟨⟨by decide, by decide, hfree rfl, ?_⟩, ⟨by decide, by decide, hfree rfl, ?_⟩,
      ⟨by decide, by decide, hfree rfl, nofun⟩, nofun⟩
    all_goals
      rintro _ ⟨⟩
      exact hfree rfl
  exact ⟨⟨htags, hitem ▸ both_readings_agree.1 s l hl⟩, hkey, hps,
    (both_readings_agree.2 "user.0" ps hkey hps).1⟩

/-- **Without a key there is no tag**, although the empty text has no other characters than those
    of keys. -/
theorem empty_key_is_lost :
    parseTag? (printed "" []) = none ∧ tagsIn (String.ofList (printed "" [])) = [] ∧
    ¬ ∀ (key : String) (ps : List Pipe), (∀ c ∈ key.toList, isKeyChar c = true) →
      (∀ p ∈ ps, p.Printable) → parseTag? (printed key ps) = some (key, ps) := by
  have hnone : parseTag? (printed "" []) = none := by decide
  refine ⟨hnone, by decide, fun h => ?_⟩
  have hread := h "" [] (by simp) (by simp)
  rw [hnone] at hread
  cases hread

end Letterpress.Tag
