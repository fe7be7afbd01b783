/-
  Tags and regions that are written are read back.

  * `ReadsBraces`: a reader that finds nothing where there is no `{{`.  `unread_literal` and
    `unread_marker` say where such a reader finds nothing at all.
  * `Pipe.Printable` are the pipes that are read back from a tag (`pipesOf_pipesText`), and
    `Pipe.Writable` those of them that can stand in a template.
  * `read?_text` reads a tag back, `Conditional.read?_text` a conditional region, whatever follows;
    `read?_eq_some_iff`: **a tag is read exactly where a canonical one is written.**
-/
import Letterpress.Proofs.Text.Cutting
import Letterpress.Tag.Conditional

namespace Letterpress.Tag

open Text

variable {β : Type}

/-! ## Where items can start -/

/-- A reader that finds nothing where there is no `{{`. -/
def ReadsBraces (read? : List Char → Option β) : Prop :=
  ∀ s, ¬ opening <+: s → read? s = none

theorem readsBraces_afterStart? (pat : List Char) : ReadsBraces (afterStart? (opening ++ pat)) := by
  intro s hs
  refine afterStart?_eq_none fun h => hs ?_
  exact (List.prefix_append opening pat).trans h

theorem readsBraces_read? : ReadsBraces read? := by
  intro s hs
  simp only [read?, afterStart?_eq_none hs, Option.bind_eq_bind, Option.bind_none]

theorem Conditional.readsBraces_readAs? (p : Polarity) : ReadsBraces (readAs? p) := by
  intro s hs
  have h : afterStart? (openingOf p) s = none := readsBraces_afterStart? _ s hs
  simp only [readAs?, h, Option.bind_eq_bind, Option.bind_none]

theorem Conditional.readsBraces_read? : ReadsBraces Conditional.read? := by
  intro s hs
  rw [Conditional.read?, readsBraces_readAs? .whenTrue s hs, Option.orElse_none]
  exact readsBraces_readAs? .whenFalse s hs

/-- Nothing is read in a text without `{{` that does not end in `{`. -/
theorem unread_literal {read? : List Char → Option β} (hr : ReadsBraces read?) {s : List Char}
    (hopen : ¬ opening <:+: s) (hlast : s.getLast? ≠ some '{') (rest : List Char) :
    Unread read? s rest := by
  induction s with
  | nil => trivial
  | cons c s ih =>
    refine ⟨hr _ fun hp => ?_, ih (fun h => hopen (h.trans (List.suffix_cons c s).isInfix)) ?_⟩
    · obtain ⟨rfl, hp'⟩ := List.cons_prefix_cons.1 hp
      cases s with
      | nil => exact hlast rfl
      | cons d s =>
        obtain ⟨hd, -⟩ := List.cons_prefix_cons.1 hp'
        rw [← hd] at hopen
        exact hopen (List.prefix_append opening s).isInfix
    · cases s with
      | nil => simp
      | cons d s => rwa [List.getLast?_cons_cons] at hlast

/-- A text between braces. -/
def marker (body : List Char) : List Char := opening ++ body ++ closing

/-- Nothing is read in a text between braces but at its start. -/
theorem unread_marker {read? : List Char → Option β} (hr : ReadsBraces read?)
    {body rest : List Char} (hbody : '{' ∉ body) (h : read? (marker body ++ rest) = none) :
    Unread read? (marker body) rest := by
  have hinner : Unread read? ('{' :: body ++ closing) rest := by
    refine unread_literal hr (fun hi => ?_) ?_ rest
    · -- the only other brace of this kind is the one at the end of the opening
      have hmem : '{' ∉ body ++ closing := by simp [hbody, closing]
      rcases List.infix_cons_iff.1 hi with hp | hi
      · exact hmem ((List.cons_prefix_cons.1 hp).2.subset List.mem_cons_self)
      · exact hmem (hi.subset List.mem_cons_self)
    · rw [List.getLast?_append, closing]
      simp
  exact ⟨h, hinner⟩

/-! ## Keys -/

/-- A text that can be a key: it is not empty and has no other characters than those of keys. -/
structure IsKey (s : List Char) : Prop where
  nonempty : s ≠ []
  chars : ∀ c ∈ s, isKeyChar c = true

instance (s : List Char) : Decidable (IsKey s) :=
  decidable_of_iff (s ≠ [] ∧ s.all isKeyChar = true)
    ⟨fun h => ⟨h.1, List.all_eq_true.1 h.2⟩, fun h => ⟨h.nonempty, List.all_eq_true.2 h.chars⟩⟩

theorem isKeyChar_toNat {c : Char} (h : isKeyChar c = true) :
    c.toNat = 46 ∨ (48 ≤ c.toNat ∧ c.toNat ≤ 57) ∨ (65 ≤ c.toNat ∧ c.toNat ≤ 90) ∨
      c.toNat = 95 ∨ (97 ≤ c.toNat ∧ c.toNat ≤ 122) := by
  unfold isKeyChar Char.isAlphanum Char.isAlpha Char.isUpper Char.isLower Char.isDigit at h
  simp only [Bool.or_eq_true, Bool.and_eq_true, decide_eq_true_eq, UInt32.le_iff_toNat_le,
    ge_iff_le] at h
  rcases h with ((((h | h) | h)) | rfl) | rfl
  · right; right; left; exact h
  · right; right; right; right; exact h
  · right; left; exact h
  · right; right; right; left; rfl
  · left; rfl

theorem isBlank_eq_false {c : Char} (h : isKeyChar c = true) : isBlank c = false := by
  have hc := isKeyChar_toNat h
  exact isBlank_eq_false_of_toNat (by omega) (by omega)

theorem IsKey.notMem {s : List Char} (h : IsKey s) {c : Char} (hc : isKeyChar c = false) :
    c ∉ s := by
  intro hs
  rw [h.chars c hs] at hc
  exact absurd hc (by decide)

theorem readKey?_append {key rest : List Char} (hkey : IsKey key)
    (hrest : ∀ c ∈ rest.head?, isKeyChar c = false) :
    readKey? (key ++ rest) = some (String.ofList key, rest) := by
  rw [readKey?, span_append hkey.chars hrest]
  simp [hkey.nonempty]

theorem readKey?_eq_some {s rest : List Char} {key : String} (h : readKey? s = some (key, rest)) :
    IsKey key.toList ∧ s = key.toList ++ rest := by
  simp only [readKey?, List.span_eq_takeWhile_dropWhile] at h
  split at h
  · cases h
  · rename_i hne
    cases h
    rw [String.toList_ofList, List.takeWhile_append_dropWhile]
    exact ⟨⟨by simpa using hne, fun c hc => List.mem_takeWhile_imp hc⟩, rfl⟩

/-! ## Pipes -/

/-- The pipe as it is written. -/
def Pipe.text (p : Pipe) : List Char := p.name.toList ++ p.argument.elim [] (':' :: ·.toList)

/-- The pipes of a tag as they are written. -/
def pipesText (ps : List Pipe) : List Char := ps.flatMap ('|' :: ·.text)

/-- A pipe that is read back from a tag: its name is trimmed, and is not empty unless there is an
    argument; no bar and no closing brace is in either, and no colon in the name. -/
structure Pipe.Printable (p : Pipe) : Prop where
  trimmed : trimText p.name = p.name
  named : p.argument = none → p.name ≠ ""
  name : ∀ c ∈ p.name.toList, c ∉ ['|', ':', '}']
  argument : ∀ a ∈ p.argument, ∀ c ∈ a.toList, c ∉ ['|', '}']

namespace Pipe.Printable

variable {p : Pipe} (h : p.Printable)
include h

theorem notMem_text : ∀ c ∈ p.text, c ∉ ['|', '}'] := by
  intro c hc
  rcases List.mem_append.1 hc with hc | hc
  · have := h.name c hc
    simp_all
  · cases ha : p.argument with
    | none => simp [ha] at hc
    | some a =>
      rw [ha, Option.elim_some, List.mem_cons] at hc
      rcases hc with rfl | hc
      · decide
      · exact h.argument a ha c hc

theorem text_ne_nil : p.text ≠ [] := by
  cases ha : p.argument with
  | none =>
    have hn : p.name.toList ≠ [] := fun hn => h.named ha (String.toList_eq_nil_iff.1 hn)
    simpa [Pipe.text, ha] using hn
  | some a => simp [Pipe.text, ha]

theorem parse_text : Pipe.parse p.text = p := by
  have hcolon : ':' ∉ p.name.toList := fun hc => by simpa using h.name _ hc
  have hname : String.ofList (trim p.name.toList) = p.name := h.trimmed
  cases ha : p.argument with
  | none =>
    have htext : p.text = p.name.toList := by simp [Pipe.text, ha]
    simp only [Pipe.parse, htext, splitOnce_eq_none hcolon, hname]
    rw [← ha]
  | some a =>
    have htext : p.text = p.name.toList ++ ':' :: a.toList := by simp [Pipe.text, ha]
    simp only [Pipe.parse, htext, splitOnce_append_cons hcolon, hname, String.ofList_toList]
    rw [← ha]

end Pipe.Printable

/-- A pipe that can stand in a template, where no opening brace is in it either. -/
structure Pipe.Writable (p : Pipe) : Prop where
  trimmed : trimText p.name = p.name
  named : p.argument = none → p.name ≠ ""
  name : ∀ c ∈ p.name.toList, c ∉ ['{', '}', '|', ':']
  argument : ∀ a ∈ p.argument, ∀ c ∈ a.toList, c ∉ ['{', '}', '|']

namespace Pipe.Writable

variable {p : Pipe} (h : p.Writable)
include h

theorem printable : p.Printable where
  trimmed := h.trimmed
  named := h.named
  name c hc := by
    have := h.name c hc
    simp_all
  argument a ha c hc := by
    have := h.argument a ha c hc
    simp_all

theorem brace_notMem_text : '{' ∉ p.text := by
  intro hc
  rcases List.mem_append.1 hc with hc | hc
  · simpa using h.name _ hc
  · cases ha : p.argument with
    | none => simp [ha] at hc
    | some a =>
      rw [ha, Option.elim_some, List.mem_cons] at hc
      rcases hc with hc | hc
      · cases hc
      · simpa using h.argument a ha _ hc

end Pipe.Writable

/-- **Pipes that are written are read back.** -/
theorem pipesOf_pipesText {ps : List Pipe} (h : ∀ p ∈ ps, p.Printable) :
    pipesOf (pipesText ps) = ps := by
  have hbar : ∀ s ∈ ps.map Pipe.text, '|' ∉ s := by
    intro s hs
    obtain ⟨p, hp, rfl⟩ := List.mem_map.1 hs
    exact fun hb => by simpa using (h p hp).notMem_text _ hb
  have hsplit : splitOn '|' (pipesText ps) = [] :: ps.map Pipe.text := by
    rw [← splitOn_joined List.not_mem_nil hbar, List.nil_append, pipesText, List.flatMap_map]
  have hkeep : (ps.map Pipe.text).filter (fun s => !s.isEmpty) = ps.map Pipe.text := by
    refine List.filter_eq_self.2 fun s hs => ?_
    obtain ⟨p, hp, rfl⟩ := List.mem_map.1 hs
    simp [(h p hp).text_ne_nil]
  have hparse : ∀ p ∈ ps, (Pipe.parse ∘ Pipe.text) p = id p := fun p hp => (h p hp).parse_text
  rw [pipesOf, hsplit, List.filter_cons_of_neg (by simp), hkeep, List.map_map,
    List.map_congr_left hparse, List.map_id]

/-! ## Tags -/

/-- A tag that is read as it is written. -/
structure Canonical (t : Tag) : Prop where
  key : IsKey t.key.toList
  pipes : t.pipeText.toList = [] ∨ ∃ body, body ≠ [] ∧ '}' ∉ body ∧ t.pipeText.toList = '|' :: body

/-- The tag with a key and pipes. -/
def ofPipes (key : String) (ps : List Pipe) : Tag := ⟨key, String.ofList (pipesText ps)⟩

section

variable {key : String} {ps : List Pipe} (h : ∀ p ∈ ps, p.Printable)
include h

theorem pipes_ofPipes : (ofPipes key ps).pipes = ps := by
  rw [Tag.pipes, ofPipes, String.toList_ofList, pipesOf_pipesText h]

theorem canonical_ofPipes (hkey : IsKey key.toList) : (ofPipes key ps).Canonical where
  key := hkey
  pipes := by
    rw [ofPipes, String.toList_ofList]
    cases ps with
    | nil => exact Or.inl rfl
    | cons p ps =>
      obtain ⟨hp, hps⟩ := List.forall_mem_cons.1 h
      have hbrace : ∀ q : Pipe, q.Printable → '}' ∉ q.text :=
        fun q hq hc => by simpa using hq.notMem_text _ hc
      refine Or.inr ⟨p.text ++ pipesText ps, ?_, ?_, rfl⟩
      · exact List.append_ne_nil_of_left_ne_nil hp.text_ne_nil _
      · rw [List.mem_append, not_or]
        refine ⟨hbrace p hp, fun hc => ?_⟩
        obtain ⟨q, hq, hc⟩ := List.mem_flatMap.1 hc
        rcases List.mem_cons.1 hc with hc | hc
        · cases hc
        · exact hbrace q (hps q hq) hc

end

theorem readPipes?_append {pipes rest : List Char}
    (h : pipes = [] ∨ ∃ body, body ≠ [] ∧ '}' ∉ body ∧ pipes = '|' :: body) :
    readPipes? (pipes ++ '}' :: rest) = some (String.ofList pipes, '}' :: rest) := by
  rcases h with rfl | ⟨body, hne, hbody, rfl⟩
  · rfl
  · have hspan : (body ++ '}' :: rest).span (fun c => decide (c ≠ '}')) = (body, '}' :: rest) := by
      refine span_append (fun c hc => ?_) (by simp)
      exact decide_eq_true fun he => hbody (he ▸ hc)
    rw [List.cons_append, readPipes?, hspan]
    simp [hne]

theorem readPipes?_eq_some {s rest : List Char} {pipeText : String}
    (h : readPipes? s = some (pipeText, rest)) :
    (pipeText.toList = [] ∨ ∃ body, body ≠ [] ∧ '}' ∉ body ∧ pipeText.toList = '|' :: body) ∧
      s = pipeText.toList ++ rest := by
  unfold readPipes? at h
  split at h
  · rw [List.span_eq_takeWhile_dropWhile] at h
    dsimp only at h
    split at h
    · cases h
    · rename_i hne
      cases h
      rw [String.toList_ofList]
      refine ⟨.inr ⟨_, by simpa using hne, fun hbrace => ?_, rfl⟩, ?_⟩
      · simpa using List.mem_takeWhile_imp hbrace
      · rw [List.cons_append, List.takeWhile_append_dropWhile]
  · cases h
    exact ⟨.inl rfl, rfl⟩

/-- **A tag is read back, whatever follows it.** -/
theorem read?_text {t : Tag} (h : t.Canonical) (rest : List Char) :
    read? (t.text ++ rest) = some (t, rest) := by
  have hopen : afterStart? opening (t.text ++ rest) =
      some (t.key.toList ++ (t.pipeText.toList ++ (closing ++ rest))) :=
    afterStart?_eq_some_iff.2 (by simp [Tag.text])
  have hhead : ∀ c ∈ (t.pipeText.toList ++ (closing ++ rest)).head?, isKeyChar c = false := by
    rcases h.pipes with hp | ⟨body, -, -, hp⟩ <;> rw [hp] <;> simp [closing, isKeyChar]
  have hclose : afterStart? closing ('}' :: '}' :: rest) = some rest :=
    afterStart?_eq_some_iff.2 rfl
  have hpipes : readPipes? (t.pipeText.toList ++ (closing ++ rest)) =
      some (t.pipeText, '}' :: '}' :: rest) := by
    have hread : readPipes? (t.pipeText.toList ++ '}' :: '}' :: rest) = _ :=
      readPipes?_append h.pipes
    rwa [String.ofList_toList] at hread
  simp [read?, hopen, readKey?_append h.key hhead, hpipes, hclose]

/-- **A tag is read exactly where a canonical one is written.** -/
theorem read?_eq_some_iff {s rest : List Char} {t : Tag} :
    read? s = some (t, rest) ↔ t.Canonical ∧ s = t.text ++ rest := by
  constructor
  · intro h
    obtain ⟨afterOpening, hopening, h⟩ := Option.bind_eq_some_iff.1 h
    obtain ⟨⟨key, afterKey⟩, hkey, h⟩ := Option.bind_eq_some_iff.1 h
    obtain ⟨⟨pipeText, afterPipes⟩, hpipes, h⟩ := Option.bind_eq_some_iff.1 h
    obtain ⟨afterClosing, hclosing, h⟩ := Option.bind_eq_some_iff.1 h
    cases h
    obtain ⟨hisKey, hafterOpening⟩ := readKey?_eq_some hkey
    obtain ⟨hcanonical, hafterKey⟩ := readPipes?_eq_some hpipes
    refine ⟨⟨hisKey, hcanonical⟩, ?_⟩
    calc s = opening ++ afterOpening := afterStart?_eq_some_iff.1 hopening
      _ = opening ++ (key.toList ++ (pipeText.toList ++ (closing ++ rest))) := by
          rw [hafterOpening, hafterKey, afterStart?_eq_some_iff.1 hclosing]
      _ = Tag.text ⟨key, pipeText⟩ ++ rest := by simp [Tag.text]
  · rintro ⟨h, rfl⟩
    exact read?_text h rest

/-! ## Regions -/

namespace Conditional

/-- What can stand in an opening marker: white space and a path. -/
structure Heads (gap key : List Char) : Prop where
  spaced : gap ≠ []
  blank : ∀ c ∈ gap, isBlank c = true
  key : IsKey key

/-- An opening marker. -/
def openerOf (p : Polarity) (gap key : List Char) : List Char :=
  openingOf p ++ (gap ++ (key ++ closing))

/-- The region with a body, cut at the first `{{else}}`. -/
def ofBody (p : Polarity) (gap key body : List Char) : Conditional :=
  let (first, alternative) := match breakOn elseMarker body with
    | some (first, alternative) => (first, some (String.ofList alternative))
    | none => (body, none)
  ⟨p, String.ofList gap, String.ofList key, String.ofList first, alternative⟩

/-- What follows the first part, up to the closing marker. -/
def alternativeText (c : Conditional) : List Char := c.alternative.elim [] (elseMarker ++ ·.toList)

/-- What stands between the opening and the closing marker. -/
def body (c : Conditional) : List Char := c.first.toList ++ c.alternativeText

theorem text_eq (c : Conditional) :
    c.text = openerOf c.polarity c.gap.toList c.condition.toList ++
      (c.body ++ closingOf c.polarity) := by
  simp [text, openerOf, body, alternativeText]

/-- Behind an opening marker a region runs to the first closing marker, and there is none if there
    is no such marker. -/
theorem readAs?_openerOf {p : Polarity} {gap key : List Char} (h : Heads gap key)
    (after : List Char) :
    readAs? p (openerOf p gap key ++ after) =
      (breakOn (closingOf p) after).map fun (body, rest) => (ofBody p gap key body, rest) := by
  have hopen : afterStart? (openingOf p) (openerOf p gap key ++ after) =
      some (gap ++ (key ++ (closing ++ after))) :=
    afterStart?_eq_some_iff.2 (by simp [openerOf])
  have hnonblank : ∀ x ∈ (key ++ (closing ++ after)).head?, isBlank x = false := by
    -- the path starts with a key character, and those are not blank
    obtain ⟨x, xs, hx⟩ := List.exists_cons_of_ne_nil h.key.nonempty
    have hk : isKeyChar x = true := h.key.chars x (hx ▸ List.mem_cons_self)
    rw [hx]
    simpa using isBlank_eq_false hk
  have hgap := span_append h.blank hnonblank
  have hend : ∀ x ∈ (closing ++ after).head?, isKeyChar x = false := by
    simp [closing, isKeyChar]
  have hkey := readKey?_append h.key hend
  have hclose : afterStart? closing (closing ++ after) = some after := afterStart?_eq_some_iff.2 rfl
  simp only [readAs?, hopen, Option.bind_eq_bind, Option.bind_some, hgap, List.isEmpty_iff, h.spaced,
    if_false, hkey, hclose]
  cases breakOn (closingOf p) after <;> rfl

/-- A region that is read starts with an opening marker. -/
theorem exists_of_readAs? {p : Polarity} {s rest : List Char} {c : Conditional}
    (h : readAs? p s = some (c, rest)) :
    ∃ gap key after body, Heads gap key ∧ s = openerOf p gap key ++ after ∧
      breakOn (closingOf p) after = some (body, rest) ∧ c = ofBody p gap key body := by
  have hread := h
  obtain ⟨afterOpening, hopening, h⟩ := Option.bind_eq_some_iff.1 h
  simp only [List.span_eq_takeWhile_dropWhile] at h
  split at h
  · cases h
  · rename_i hgap
    obtain ⟨⟨condition, afterKey⟩, hkey, h⟩ := Option.bind_eq_some_iff.1 h
    obtain ⟨after, hclosing, -⟩ := Option.bind_eq_some_iff.1 h
    obtain ⟨hcondition, hdrop⟩ := readKey?_eq_some hkey
    have hheads : Heads (afterOpening.takeWhile isBlank) condition.toList :=
      ⟨by simpa using hgap, fun c hc => List.mem_takeWhile_imp hc, hcondition⟩
    have hs : s = openerOf p (afterOpening.takeWhile isBlank) condition.toList ++ after := by
      rw [openerOf, List.append_assoc, List.append_assoc, List.append_assoc,
        ← afterStart?_eq_some_iff.1 hclosing, ← hdrop, List.takeWhile_append_dropWhile]
      exact afterStart?_eq_some_iff.1 hopening
    rw [hs, readAs?_openerOf hheads] at hread
    obtain ⟨⟨body, rest⟩, hbody, ⟨⟩⟩ := Option.map_eq_some_iff.1 hread
    exact ⟨_, _, after, body, hheads, hs, hbody, rfl⟩

theorem body_ofBody (p : Polarity) (gap key body : List Char) :
    (ofBody p gap key body).body = body := by
  rw [ofBody]
  cases helse : breakOn elseMarker body with
  | none => simp [Conditional.body, alternativeText]
  | some parts => simp [Conditional.body, alternativeText, breakOn_eq_some helse]

theorem text_ofBody (p : Polarity) (gap key body : List Char) :
    (ofBody p gap key body).text = openerOf p gap key ++ (body ++ closingOf p) := by
  have hgap : (ofBody p gap key body).gap.toList = gap := String.toList_ofList
  have hkey : (ofBody p gap key body).condition.toList = key := String.toList_ofList
  rw [text_eq, body_ofBody, hgap, hkey]
  rfl

/-- A region that is read as it is written, when a text follows it: no closing marker comes before
    its own, and no `{{else}}` before the one of its alternative. -/
structure CanonicalBefore (c : Conditional) (rest : List Char) : Prop where
  gap : c.gap.toList ≠ []
  blank : ∀ x ∈ c.gap.toList, isBlank x = true
  condition : IsKey c.condition.toList
  closes : Unread (afterStart? (closingOf c.polarity)) c.body (closingOf c.polarity ++ rest)
  splits : Unread (afterStart? elseMarker) c.first.toList c.alternativeText

theorem breakOn_elseMarker {c : Conditional} {rest : List Char} (h : c.CanonicalBefore rest) :
    breakOn elseMarker c.body = c.alternative.map fun a => (c.first.toList, a.toList) := by
  have hs := h.splits
  cases ha : c.alternative with
  | none =>
    have hbody : c.body = c.first.toList := by simp [body, alternativeText, ha]
    rw [alternativeText, ha] at hs
    rw [hbody, breakOn_eq_none_of_unread (by decide) hs, Option.map_none]
  | some a =>
    have hbody : c.body = c.first.toList ++ (elseMarker ++ a.toList) := by
      simp [body, alternativeText, ha]
    rw [alternativeText, ha] at hs
    rw [hbody, breakOn_append_of_unread hs, Option.map_some]

theorem ofBody_body {c : Conditional} {rest : List Char} (h : c.CanonicalBefore rest) :
    ofBody c.polarity c.gap.toList c.condition.toList c.body = c := by
  rw [ofBody, breakOn_elseMarker h]
  obtain ⟨polarity, gap, condition, first, alternative⟩ := c
  cases alternative with
  | none => simp [body, alternativeText]
  | some a => simp

theorem readAs?_text {c : Conditional} {rest : List Char} (h : c.CanonicalBefore rest) :
    readAs? c.polarity (c.text ++ rest) = some (c, rest) := by
  have hheads : Heads c.gap.toList c.condition.toList := ⟨h.gap, h.blank, h.condition⟩
  rw [text_eq, List.append_assoc, List.append_assoc, readAs?_openerOf hheads,
    breakOn_append_of_unread h.closes, Option.map_some]
  exact congrArg (fun c => some (c, rest)) (ofBody_body h)

/-- A text that opens a region of one polarity opens none of the other. -/
theorem readAs?_whenTrue_openingOf_whenFalse (s : List Char) :
    readAs? .whenTrue (openingOf .whenFalse ++ s) = none := by
  have h : afterStart? (openingOf .whenTrue) (openingOf .whenFalse ++ s) = none := by rfl
  simp only [readAs?, h, Option.bind_eq_bind, Option.bind_none]

/-- **A region is read back.** -/
theorem read?_text {c : Conditional} {rest : List Char} (h : c.CanonicalBefore rest) :
    Conditional.read? (c.text ++ rest) = some (c, rest) := by
  have hread := readAs?_text h
  cases hp : c.polarity with
  | whenTrue =>
    rw [hp] at hread
    rw [Conditional.read?, hread, Option.orElse_some]
  | whenFalse =>
    rw [hp] at hread
    obtain ⟨s, hs⟩ : ∃ s, c.text ++ rest = openingOf .whenFalse ++ s := by
      simp only [Conditional.text, hp, List.append_assoc]
      exact ⟨_, rfl⟩
    have hnone : readAs? .whenTrue (c.text ++ rest) = none := by
      rw [hs, readAs?_whenTrue_openingOf_whenFalse]
    rw [Conditional.read?, hnone, Option.orElse_none, hread]

end Conditional

end Letterpress.Tag
