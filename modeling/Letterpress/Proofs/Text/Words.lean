/-
  Words, and the slugs that are made of them.

  * `Words s words`: the words of a text are its runs of alphanumeric characters, none of which
    can be made longer.  Every text has them (`exists_words`), and no others (`Words.unique`).
  * `Words.slugFrom_eq`: a slug is the words in lower case with dashes between them.
  * `dashesInside_joinWith`: there are no other dashes, as no letter has one in lower case
    (`dash_notMem_lowerOf`).
-/
import Letterpress.Proofs.Text.Cutting
import Letterpress.Text.Naming
import Mathlib.Data.List.Chain

namespace Letterpress.Text

/-! ## Words -/

/-- A text between words. -/
def IsGap (s : List Char) : Prop := ∀ c ∈ s, isAlphanumeric c = false

/-- The words of a text in order. -/
inductive Words : List Char → List (List Char) → Prop
  | nil {gap} : IsGap gap → Words gap []
  | cons {gap word rest words} : IsGap gap → word ≠ [] → (∀ c ∈ word, isAlphanumeric c = true) →
      (∀ c ∈ rest.head?, isAlphanumeric c = false) → Words rest words →
      Words (gap ++ (word ++ rest)) (word :: words)

variable {s t gap : List Char} {words words' : List (List Char)}

theorem IsGap.append (hs : IsGap s) (ht : IsGap t) : IsGap (s ++ t) :=
  List.forall_mem_append.2 ⟨hs, ht⟩

theorem Words.gap_append (h : Words s words) (hgap : IsGap gap) : Words (gap ++ s) words := by
  cases h with
  | nil hs => exact .nil (hgap.append hs)
  | cons hbefore hne hword hend hrest =>
    rw [← List.append_assoc]
    exact .cons (hgap.append hbefore) hne hword hend hrest

/-- A word at the start of a text. -/
theorem Words.cons_start {word rest : List Char} (hne : word ≠ [])
    (hword : ∀ c ∈ word, isAlphanumeric c = true)
    (hend : ∀ c ∈ rest.head?, isAlphanumeric c = false) (h : Words rest words) :
    Words (word ++ rest) (word :: words) := by
  have hgap : IsGap [] := nofun
  exact .cons hgap hne hword hend h

theorem exists_words (s : List Char) : ∃ words, Words s words := by
  induction s with
  | nil => exact ⟨[], .nil nofun⟩
  | cons c s ih =>
    obtain ⟨words, h⟩ := ih
    cases hc : isAlphanumeric c with
    | false =>
      have hgap : IsGap [c] := List.forall_mem_singleton.2 hc
      exact ⟨words, h.gap_append hgap⟩
    | true =>
      have halone : ∀ d ∈ [c], isAlphanumeric d = true := List.forall_mem_singleton.2 hc
      cases h with
      | nil hs =>
        refine ⟨[[c]], Words.cons_start (List.cons_ne_nil c []) halone ?_ (.nil hs)⟩
        exact fun d hd => hs d (List.mem_of_mem_head? hd)
      | @cons gap word rest words hgap hne hword hend hrest =>
        cases gap with
        | nil =>
          -- the character makes the first word longer
          exact ⟨(c :: word) :: words, Words.cons_start (List.cons_ne_nil c word)
            (List.forall_mem_cons.2 ⟨hc, hword⟩) hend hrest⟩
        | cons d gap =>
          refine ⟨[c] :: word :: words, Words.cons_start (List.cons_ne_nil c []) halone ?_
            (.cons hgap hne hword hend hrest)⟩
          rintro _ ⟨⟩
          exact hgap d List.mem_cons_self

/-- Where the first word starts. -/
theorem span_gap {word rest : List Char} (hgap : IsGap gap) (hne : word ≠ [])
    (hword : ∀ c ∈ word, isAlphanumeric c = true) :
    (gap ++ (word ++ rest)).span (fun c => !isAlphanumeric c) = (gap, word ++ rest) := by
  refine span_append (fun c hc => by rw [hgap c hc]; rfl) fun c hc => ?_
  cases word with
  | nil => exact absurd rfl hne
  | cons d word =>
    cases hc
    rw [hword c List.mem_cons_self]
    rfl

theorem not_isGap_of_word {word rest : List Char} (hne : word ≠ [])
    (hword : ∀ c ∈ word, isAlphanumeric c = true) : ¬ IsGap (gap ++ (word ++ rest)) := by
  obtain ⟨c, hc⟩ := List.exists_mem_of_ne_nil word hne
  intro h
  have hfalse := h c (List.mem_append_right _ (List.mem_append_left _ hc))
  rw [hword c hc] at hfalse
  cases hfalse

theorem Words.unique (h : Words s words) (h' : Words s words') : words = words' := by
  induction h generalizing words' with
  | nil hs =>
    cases h' with
    | nil => rfl
    | cons _ hne hword => exact absurd hs (not_isGap_of_word hne hword)
  | @cons gap word rest words hgap hne hword hend _ ih =>
    generalize hs : gap ++ (word ++ rest) = s at h'
    cases h' with
    | nil hs' => exact absurd (hs ▸ hs') (not_isGap_of_word hne hword)
    | @cons gap' word' rest' words' hgap' hne' hword' hend' hrest' =>
      have hstart := congrArg (List.span fun c => !isAlphanumeric c) hs
      rw [span_gap hgap hne hword, span_gap hgap' hne' hword'] at hstart
      have hstop := congrArg (List.span isAlphanumeric) (Prod.mk.inj hstart).2
      rw [span_append hword hend, span_append hword' hend'] at hstop
      obtain ⟨rfl, rfl⟩ := Prod.mk.inj hstop
      rw [ih hrest']

theorem Words.append (hs : Words s words) (ht : Words t words') (hne : gap ≠ [])
    (hgap : IsGap gap) : Words (s ++ (gap ++ t)) (words ++ words') := by
  induction hs with
  | nil hs => exact (ht.gap_append hgap).gap_append hs
  | @cons before word rest words hbefore hword_ne hword hend _ ih =>
    rw [List.append_assoc, List.append_assoc]
    refine .cons hbefore hword_ne hword (fun c hc => ?_) ih
    cases rest with
    | nil =>
      cases gap with
      | nil => exact absurd rfl hne
      | cons d gap =>
        cases hc
        exact hgap c List.mem_cons_self
    | cons d rest => exact hend c hc

theorem Words.eq_nil_iff (h : Words s words) : words = [] ↔ IsGap s := by
  cases h with
  | nil hs => exact iff_of_true rfl hs
  | cons _ hne hword => exact iff_of_false (List.cons_ne_nil _ _) (not_isGap_of_word hne hword)

theorem Words.isWord (h : Words s words) :
    ∀ word ∈ words, word ≠ [] ∧ ∀ c ∈ word, isAlphanumeric c = true := by
  induction h with
  | nil => nofun
  | cons _ hne hword _ _ ih => exact List.forall_mem_cons.2 ⟨⟨hne, hword⟩, ih⟩

/-! ## Joining -/

theorem joinWith_cons (sep part : List Char) (parts : List (List Char)) :
    joinWith sep (part :: parts) = part ++ parts.flatMap (sep ++ ·) := by
  induction parts generalizing part with
  | nil => exact (List.append_nil part).symm
  | cons p parts ih =>
    rw [joinWith, ih, List.flatMap_cons, List.append_assoc, List.append_assoc]
    exact List.cons_ne_nil p parts

theorem joinWith_eq_nil_iff (sep : List Char) {parts : List (List Char)}
    (hne : ∀ part ∈ parts, part ≠ []) : joinWith sep parts = [] ↔ parts = [] := by
  cases parts with
  | nil => exact iff_of_true rfl rfl
  | cons part parts =>
    refine iff_of_false (fun h => ?_) (List.cons_ne_nil part parts)
    rw [joinWith_cons, List.append_eq_nil_iff] at h
    exact hne part List.mem_cons_self h.1

/-- Lists of parts are joined as the texts that are joined from them, if these are not empty. -/
theorem joinWith_append {sep : List Char} {parts parts' : List (List Char)}
    (hne : ∀ part ∈ parts, part ≠ []) (hne' : ∀ part ∈ parts', part ≠ []) :
    joinWith sep (parts ++ parts') =
      joinWith sep ([joinWith sep parts, joinWith sep parts'].filter (· ≠ [])) := by
  cases parts with
  | nil =>
    cases parts' with
    | nil => rfl
    | cons part' parts' =>
      have hjoined := mt (joinWith_eq_nil_iff sep hne').1 (List.cons_ne_nil part' parts')
      simp [joinWith, hjoined]
  | cons part parts =>
    have hjoined := mt (joinWith_eq_nil_iff sep hne).1 (List.cons_ne_nil part parts)
    cases parts' with
    | nil => simp [joinWith, hjoined]
    | cons part' parts' =>
      have hjoined' := mt (joinWith_eq_nil_iff sep hne').1 (List.cons_ne_nil part' parts')
      have hkept : [joinWith sep (part :: parts), joinWith sep (part' :: parts')].filter (· ≠ []) =
          [joinWith sep (part :: parts), joinWith sep (part' :: parts')] :=
        List.filter_eq_self.2 (List.forall_mem_cons.2
          ⟨decide_eq_true hjoined, List.forall_mem_singleton.2 (decide_eq_true hjoined')⟩)
      rw [hkept]
      simp only [joinWith_cons, List.cons_append, List.flatMap_append, List.flatMap_cons,
        List.flatMap_nil, List.append_nil, List.append_assoc]

/-! ## The words of a slug -/

/-- A word in lower case. -/
def lowered (word : List Char) : List Char := word.flatMap lowerOf

variable {started : Bool}

theorem slugFrom_gap (hgap : IsGap gap) (hne : gap ≠ []) (pending : Bool) (s : List Char) :
    slugFrom started pending (gap ++ s) = slugFrom started true s := by
  induction gap generalizing pending with
  | nil => exact absurd rfl hne
  | cons c gap ih =>
    obtain ⟨hc, hgap⟩ := List.forall_mem_cons.1 hgap
    rw [List.cons_append, slugFrom, hc, if_neg Bool.false_ne_true]
    cases gap with
    | nil => rfl
    | cons d gap => exact ih hgap (List.cons_ne_nil d gap) true

theorem slugFrom_isGap (hgap : IsGap gap) (pending : Bool) : slugFrom started pending gap = [] := by
  induction gap generalizing pending with
  | nil => rfl
  | cons c gap ih =>
    obtain ⟨hc, hgap⟩ := List.forall_mem_cons.1 hgap
    rw [slugFrom, hc, if_neg Bool.false_ne_true, ih hgap]

/-- A word is written in lower case, behind a dash if there is one before it. -/
theorem slugFrom_word {word : List Char} (hne : word ≠ [])
    (hword : ∀ c ∈ word, isAlphanumeric c = true) (pending : Bool) (s : List Char) :
    slugFrom started pending (word ++ s) =
      (if pending && started then ['-'] else []) ++ lowered word ++ slugFrom true false s := by
  induction word generalizing started pending with
  | nil => exact absurd rfl hne
  | cons c word ih =>
    obtain ⟨hc, hword⟩ := List.forall_mem_cons.1 hword
    rw [List.cons_append, slugFrom, hc, if_pos rfl, lowered, List.flatMap_cons]
    cases word with
    | nil => simp
    | cons d word =>
      rw [ih (List.cons_ne_nil d word) hword, lowered]
      simp only [Bool.false_and, Bool.false_eq_true, if_false, List.nil_append, List.append_assoc]

/-- Behind a word, every word has a dash. -/
theorem Words.slugFrom_later (h : Words s words) {pending : Bool}
    (hpending : pending = false → ∀ c ∈ s.head?, isAlphanumeric c = false) :
    slugFrom true pending s = (words.map lowered).flatMap (['-'] ++ ·) := by
  induction h generalizing pending with
  | nil hs => exact slugFrom_isGap hs pending
  | @cons gap word rest words hgap hne hword hend _ ih =>
    have hdash : slugFrom true pending (gap ++ (word ++ rest)) =
        slugFrom true true (word ++ rest) := by
      cases gap with
      | cons d gap => exact slugFrom_gap hgap (List.cons_ne_nil d gap) pending _
      | nil =>
        cases pending with
        | true => rfl
        | false =>
          cases word with
          | nil => exact absurd rfl hne
          | cons c word =>
            have hfalse := hpending rfl c rfl
            rw [hword c List.mem_cons_self] at hfalse
            cases hfalse
    rw [hdash, slugFrom_word hne hword, ih fun _ => hend, List.map_cons, List.flatMap_cons]
    rfl

/-- **A slug is the words joined.** -/
theorem Words.slugFrom_eq (h : Words s words) (pending : Bool) :
    slugFrom false pending s = joinWith ['-'] (words.map lowered) := by
  cases h with
  | nil hs => exact slugFrom_isGap hs pending
  | @cons gap word rest words hgap hne hword hend hrest =>
    have hstart : ∃ pending', slugFrom false pending (gap ++ (word ++ rest)) =
        slugFrom false pending' (word ++ rest) := by
      cases gap with
      | nil => exact ⟨pending, rfl⟩
      | cons d gap => exact ⟨true, slugFrom_gap hgap (List.cons_ne_nil d gap) pending _⟩
    obtain ⟨pending', hstart⟩ := hstart
    rw [hstart, slugFrom_word hne hword, Bool.and_false, if_neg Bool.false_ne_true,
      List.nil_append, hrest.slugFrom_later fun _ => hend, List.map_cons, joinWith_cons]

/-! ## Dashes -/

/-- The forms of a character: shifted, expanded, or the character itself. -/
theorem mapCase_cases (runs : List CaseRun) (expansions : List (Nat × List Nat)) (c : Char) :
    (∃ r ∈ runs, r.contains c.toNat = true ∧
        mapCase runs expansions c = [Char.ofNat (c.toNat + r.shift).toNat]) ∨
      (∃ e ∈ expansions, mapCase runs expansions c = e.2.map Char.ofNat) ∨
      mapCase runs expansions c = [c] := by
  rw [mapCase]
  split
  · rename_i r hr
    have hcontains := List.find?_some hr
    exact .inl ⟨r, List.mem_of_find?_eq_some hr, hcontains, rfl⟩
  · right
    split
    · rename_i ns hns
      obtain ⟨before, after, htable, -⟩ := List.lookup_eq_some_iff.1 hns
      exact .inl ⟨(c.toNat, ns), htable ▸ List.mem_append_right _ List.mem_cons_self, rfl⟩
    · exact .inr rfl

theorem lowerOf_ne_nil (c : Char) : lowerOf c ≠ [] := by
  have hexpansions : ∀ e ∈ lowerExpansions, e.2 ≠ [] := by decide
  rcases mapCase_cases lowerRuns lowerExpansions c with ⟨r, -, -, heq⟩ | ⟨e, he, heq⟩ | heq
  · rw [lowerOf, heq]
    exact List.cons_ne_nil _ _
  · rw [lowerOf, heq, Ne, List.map_eq_nil_iff]
    exact hexpansions e he
  · rw [lowerOf, heq]
    exact List.cons_ne_nil _ _

theorem eq_of_ofNat_eq_dash {n : Nat} (h : Char.ofNat n = '-') : n = 45 := by
  by_cases hvalid : n.isValidChar
  · rw [Char.ofNat, dif_pos hvalid] at h
    exact congrArg Char.toNat h
  · rw [Char.ofNat, dif_neg hvalid] at h
    cases h

/-- A letter is not written with a dash in lower case. -/
theorem dash_notMem_lowerOf {c : Char} (hc : isAlphanumeric c = true) : '-' ∉ lowerOf c := by
  have hruns : ∀ r ∈ lowerRuns, 45 < r.first + r.shift := by decide +kernel
  have hexpansions : ∀ e ∈ lowerExpansions, ∀ n ∈ e.2, Char.ofNat n ≠ '-' := by decide +kernel
  have hdash : isAlphanumeric '-' = false := by decide +kernel
  rcases mapCase_cases lowerRuns lowerExpansions c with ⟨r, hr, hcontains, heq⟩ | ⟨e, he, heq⟩ | heq
  · -- a run maps no character of its own to the dash
    have hshifted := hruns r hr
    rw [CaseRun.contains, Bool.and_eq_true, Bool.and_eq_true, decide_eq_true_iff] at hcontains
    rw [lowerOf, heq, List.mem_singleton]
    intro heq
    have hvalue := eq_of_ofNat_eq_dash heq.symm
    omega
  · rw [lowerOf, heq, List.mem_map]
    rintro ⟨n, hn, heq⟩
    exact hexpansions e he n hn heq
  · rw [lowerOf, heq, List.mem_singleton]
    rintro rfl
    exact Bool.false_ne_true (hdash.symm.trans hc)

/-- Two neighbours are not both dashes. -/
def NotDashes (c d : Char) : Prop := ¬ (c = '-' ∧ d = '-')

/-- Parts without dashes, each between two dashes, have no other dashes between them. -/
theorem isChain_parts {parts : List (List Char)} (hne : ∀ part ∈ parts, part ≠ [])
    (hdash : ∀ part ∈ parts, '-' ∉ part) :
    List.IsChain NotDashes (parts.flatMap (['-'] ++ ·) ++ ['-']) := by
  induction parts with
  | nil => exact .singleton '-'
  | cons part parts ih =>
    obtain ⟨hpart, hne⟩ := List.forall_mem_cons.1 hne
    obtain ⟨hclean, hdash⟩ := List.forall_mem_cons.1 hdash
    have hinside : part.IsChain NotDashes := by
      refine (List.pairwise_of_forall_mem_list fun c hc d _ => ?_).isChain
      rintro ⟨rfl, -⟩
      exact hclean hc
    rw [List.flatMap_cons, List.append_assoc, List.append_assoc, List.singleton_append,
      List.isChain_cons, List.isChain_append]
    refine ⟨fun d hd => ?_, hinside, ih hne hdash, fun c hc d _ => ?_⟩
    · cases part with
      | nil => exact absurd rfl hpart
      | cons c part =>
        cases hd
        rintro ⟨-, rfl⟩
        exact hclean List.mem_cons_self
    · rintro ⟨rfl, -⟩
      exact hclean (List.mem_of_getLast? hc)

/-- Texts with dashes only between their parts. -/
structure DashesInside (s : List Char) : Prop where
  start : s.head? ≠ some '-'
  stop : s.getLast? ≠ some '-'
  single : ¬ ['-', '-'] <:+: s

theorem dashesInside_joinWith {parts : List (List Char)} (hne : ∀ part ∈ parts, part ≠ [])
    (hdash : ∀ part ∈ parts, '-' ∉ part) : DashesInside (joinWith ['-'] parts) := by
  cases parts with
  | nil => exact ⟨nofun, nofun, by decide⟩
  | cons part parts =>
    have hchain := isChain_parts hne hdash
    have hjoined : (part :: parts).flatMap (['-'] ++ ·) =
        '-' :: joinWith ['-'] (part :: parts) := by
      rw [joinWith_cons]
      rfl
    rw [hjoined, List.cons_append, List.isChain_cons, List.isChain_append] at hchain
    obtain ⟨hstart, hinside, -, hstop⟩ := hchain
    refine ⟨fun h => ?_, fun h => hstop '-' h '-' rfl ⟨rfl, rfl⟩, fun h => ?_⟩
    · refine hstart '-' ?_ ⟨rfl, rfl⟩
      rw [List.head?_append, h]
      rfl
    · have hdashes := List.IsChain.infix hinside h
      exact (List.isChain_cons_cons.1 hdashes).1 ⟨rfl, rfl⟩

/-! ## Slugs -/

theorem Words.toList_slugify {text : String} (h : Words text.toList words) :
    (slugify text).toList = joinWith ['-'] (words.map lowered) := by
  rw [slugify, String.toList_ofList, h.slugFrom_eq]

theorem Words.lowered_ne_nil (h : Words s words) : ∀ part ∈ words.map lowered, part ≠ [] := by
  refine List.forall_mem_map.2 fun word hword heq => ?_
  obtain ⟨c, hc⟩ := List.exists_mem_of_ne_nil word (h.isWord word hword).1
  exact lowerOf_ne_nil c (List.flatMap_eq_nil_iff.1 heq c hc)

theorem Words.dash_notMem_lowered (h : Words s words) : ∀ part ∈ words.map lowered, '-' ∉ part := by
  refine List.forall_mem_map.2 fun word hword hmem => ?_
  obtain ⟨c, hc, hdash⟩ := List.mem_flatMap.1 hmem
  exact dash_notMem_lowerOf ((h.isWord word hword).2 c hc) hdash

theorem slugify_eq_empty_iff (text : String) : slugify text = "" ↔ IsGap text.toList := by
  obtain ⟨words, h⟩ := exists_words text.toList
  rw [← h.eq_nil_iff, ← String.toList_inj, h.toList_slugify]
  exact (joinWith_eq_nil_iff _ h.lowered_ne_nil).trans List.map_eq_nil_iff

theorem slugify_append {a b separator : String} (hne : separator ≠ "")
    (hgap : IsGap separator.toList) :
    (slugify (a ++ separator ++ b)).toList =
      joinWith ['-'] ([(slugify a).toList, (slugify b).toList].filter (· ≠ [])) := by
  obtain ⟨words, ha⟩ := exists_words a.toList
  obtain ⟨words', hb⟩ := exists_words b.toList
  have hboth : Words (a ++ separator ++ b).toList (words ++ words') := by
    rw [String.toList_append, String.toList_append, List.append_assoc]
    exact ha.append hb (fun h => hne (String.toList_eq_nil_iff.1 h)) hgap
  rw [hboth.toList_slugify, ha.toList_slugify, hb.toList_slugify, List.map_append,
    joinWith_append ha.lowered_ne_nil hb.lowered_ne_nil]

end Letterpress.Text
