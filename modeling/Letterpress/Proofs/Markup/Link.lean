/-
  Link targets as a reader of markup sees them.

  * `schemeOf?` is the scheme of a target, and `isSafeUrl_iff` says that nothing else of it is
    looked at.
  * `decode` puts characters in the place of character references.  A reference by name never
    touches the scheme, one by number can (`schemeOf?_decode`).
  * `isSafeUrl_of_mem_sanitize`: what this means for the links of a sanitized text.
-/
import Letterpress.Json.Token
import Letterpress.Proofs.Markup.Sanitizer

namespace Letterpress.Markup

open Text

/-! ## Letters -/

theorem isAlpha_iff {c : Char} : c.isAlpha = true ↔
    (65 ≤ c.toNat ∧ c.toNat ≤ 90) ∨ (97 ≤ c.toNat ∧ c.toNat ≤ 122) := by
  unfold Char.isAlpha Char.isUpper Char.isLower
  simp only [Bool.or_eq_true, Bool.and_eq_true, decide_eq_true_eq, UInt32.le_iff_toNat_le,
    ge_iff_le]
  exact Iff.rfl

theorem toNat_toLower (c : Char) :
    c.toLower.toNat = if 65 ≤ c.toNat ∧ c.toNat ≤ 90 then c.toNat + 32 else c.toNat := by
  have hiff : (c.val ≥ 'A'.val ∧ c.val ≤ 'Z'.val) ↔ 65 ≤ c.toNat ∧ c.toNat ≤ 90 := by
    rw [ge_iff_le, UInt32.le_iff_toNat_le, UInt32.le_iff_toNat_le]
    exact Iff.rfl
  unfold Char.toLower
  split
  · rename_i h
    have hle := hiff.1 h
    have hsum : (c.val + ('a'.val - 'A'.val)).toNat = (c.toNat + 32) % 2 ^ 32 :=
      UInt32.toNat_add _ _
    rw [if_pos hle]
    exact hsum.trans (Nat.mod_eq_of_lt (by omega))
  · rename_i h
    rw [if_neg (mt hiff.2 h)]

theorem isAlpha_toLower (c : Char) : c.toLower.isAlpha = c.isAlpha := by
  rw [Bool.eq_iff_iff, isAlpha_iff, isAlpha_iff, toNat_toLower]
  split <;> omega

theorem toLower_eq_colon {c : Char} : c.toLower = ':' ↔ c = ':' := by
  have hcolon : ':'.toNat = 58 := rfl
  rw [← Char.toNat_inj, ← Char.toNat_inj, toNat_toLower, hcolon]
  split <;> omega

/-! ## Schemes -/

/-- The letters at the start of a target, after white space. -/
def leadOf (url : List Char) : List Char := (trimStart url).takeWhile Char.isAlpha

/-- What follows the letters at the start of a target. -/
def afterLead (url : List Char) : List Char := (trimStart url).dropWhile Char.isAlpha

/-- The scheme of a target in lower case: the letters before a colon. -/
def schemeOf? (url : List Char) : Option (List Char) :=
  if (afterLead url).head? = some ':' then some ((leadOf url).map Char.toLower) else none

/-- The white space, the letters and the rest of a target. -/
structure Lead (blanks letters rest : List Char) : Prop where
  blank : ∀ c ∈ blanks, isBlank c = true
  alpha : ∀ c ∈ letters, c.isAlpha = true
  start : ∀ c ∈ (letters ++ rest).head?, isBlank c = false
  next : ∀ c ∈ rest.head?, c.isAlpha = false

theorem leadOf_append_afterLead (url : List Char) : leadOf url ++ afterLead url = trimStart url :=
  List.takeWhile_append_dropWhile

/-- Every target is cut that way. -/
theorem exists_lead (url : List Char) :
    ∃ blanks, url = blanks ++ (leadOf url ++ afterLead url) ∧
      Lead blanks (leadOf url) (afterLead url) := by
  refine ⟨url.takeWhile isBlank, ?_, ?_⟩
  · rw [leadOf_append_afterLead]
    exact List.takeWhile_append_dropWhile.symm
  · constructor
    case blank => exact fun c hc => List.all_eq_true.1 (List.all_takeWhile) c hc
    case alpha => exact fun c hc => List.all_eq_true.1 (List.all_takeWhile) c hc
    case start =>
      rw [leadOf_append_afterLead]
      exact head?_dropWhile
    case next => exact head?_dropWhile

theorem Lead.schemeOf?_eq {blanks letters rest : List Char} (h : Lead blanks letters rest) :
    schemeOf? (blanks ++ (letters ++ rest)) =
      if rest.head? = some ':' then some (letters.map Char.toLower) else none := by
  have htrim := congrArg Prod.snd (span_append h.blank h.start)
  have hspan := span_append h.alpha h.next
  rw [List.span_eq_takeWhile_dropWhile] at htrim hspan
  rw [Prod.mk.injEq] at hspan
  have hstart : trimStart (blanks ++ (letters ++ rest)) = letters ++ rest := htrim
  rw [schemeOf?, leadOf, afterLead, hstart, hspan.1, hspan.2]

theorem map_toLower_alpha {s : List Char} (h : ∀ c ∈ s, c.isAlpha = true) :
    ∀ c ∈ s.map Char.toLower, c.isAlpha = true := by
  intro d hd
  obtain ⟨c, hc, rfl⟩ := List.mem_map.1 hd
  rw [isAlpha_toLower]
  exact h c hc

/-- A target starts with a scheme and a colon, in any case and after white space, exactly if that
    is its scheme. -/
theorem prefix_iff_schemeOf? {url scheme : List Char} (hscheme : ∀ c ∈ scheme, c.isAlpha = true) :
    scheme ++ [':'] <+: (trim url).map Char.toLower ↔ schemeOf? url = some scheme := by
  obtain ⟨blanks, -, hlead⟩ := exists_lead url
  have hcut := (leadOf_append_afterLead url).symm
  constructor
  · intro h
    obtain ⟨tail, htail⟩ := h.trans ((trimEnd_prefix_self (trimStart url)).map Char.toLower)
    rw [hcut, List.map_append, List.append_assoc, List.singleton_append] at htail
    -- on both sides letters stand before what is no letter
    have hleft : (scheme ++ ':' :: tail).span Char.isAlpha = (scheme, ':' :: tail) := by
      refine span_append hscheme fun c hc => ?_
      cases hc
      decide
    have hright : ((leadOf url).map Char.toLower ++ (afterLead url).map Char.toLower).span
        Char.isAlpha = ((leadOf url).map Char.toLower, (afterLead url).map Char.toLower) := by
      refine span_append (map_toLower_alpha hlead.alpha) fun d hd => ?_
      rw [List.head?_map] at hd
      obtain ⟨c, hc, rfl⟩ := Option.map_eq_some_iff.1 hd
      rw [isAlpha_toLower]
      exact hlead.next c hc
    rw [htail, hright, Prod.mk.injEq] at hleft
    have hcolon : (afterLead url).head? = some ':' := by
      have hhead := congrArg List.head? hleft.2
      rw [List.head?_map] at hhead
      obtain ⟨c, hc, hlower⟩ := Option.map_eq_some_iff.1 hhead
      rwa [toLower_eq_colon.1 hlower] at hc
    rw [schemeOf?, if_pos hcolon, hleft.1]
  · intro h
    rw [schemeOf?] at h
    split at h
    · rename_i hcolon
      obtain ⟨tail, htail⟩ := List.head?_eq_some_iff.1 hcolon
      rw [trim, hcut, htail, trimEnd_append_cons (by decide), List.map_append, List.map_cons,
        Option.some.inj h]
      exact (List.prefix_append_right_inj scheme).2 (List.cons_prefix_cons.2 ⟨rfl, List.nil_prefix⟩)
    · cases h

/-- A target is refused for its scheme, and for nothing else. -/
theorem isSafeUrl_iff {url : String} : isSafeUrl url = true ↔
    ∀ refused ∈ refusedSchemes, schemeOf? url.toList ≠ some refused.toList.dropLast := by
  have hrefused : ∀ refused ∈ refusedSchemes, refused.toList =
      refused.toList.dropLast ++ [':'] ∧ refused.toList.dropLast.all Char.isAlpha = true := by
    intro refused hmem
    simp only [refusedSchemes, List.mem_cons, List.not_mem_nil, or_false] at hmem
    rcases hmem with rfl | rfl | rfl <;> exact ⟨rfl, rfl⟩
  rw [isSafeUrl, List.all_eq_true]
  refine forall₂_congr fun refused hmem => ?_
  obtain ⟨hcolon, halpha⟩ := hrefused refused hmem
  rw [List.all_eq_true] at halpha
  rw [Option.isNone_iff_eq_none, afterStart?_eq_none_iff, ne_eq, ← prefix_iff_schemeOf? halpha,
    ← hcolon]

theorem isSafeUrl_congr {url url' : String} (h : schemeOf? url.toList = schemeOf? url'.toList) :
    isSafeUrl url = isSafeUrl url' := by
  rw [Bool.eq_iff_iff, isSafeUrl_iff, isSafeUrl_iff, h]

theorem isSafeUrl_safeUrl (url : String) : isSafeUrl (safeUrl url) = true := by
  rw [safeUrl]
  split
  · assumption
  · decide

/-! ## Character references -/

/-- The character with a number; zero and what is no code point give the replacement character. -/
def numberedChar (n : Nat) : Char :=
  if n ≠ 0 ∧ n.isValidChar then Char.ofNat n else Char.ofNat 0xFFFD

/-- A number in a base below 17. -/
def readDigits? (base : Nat) (s : List Char) : Option Nat :=
  let digits := s.mapM fun c => (Json.hexValue? c).filter (· < base)
  (digits.filter (!·.isEmpty)).map fun ds => ds.foldl (base * · + ·) 0

/-- A character reference by number, `&#106;` or `&#x6A;`. -/
def readNumbered? : Reader Char := fun s => do
  let s ← afterStart? ['&', '#'] s
  let (body, s) ← splitOnce ';' s
  let n ← match body with
    | 'x' :: digits => readDigits? 16 digits
    | 'X' :: digits => readDigits? 16 digits
    | digits => readDigits? 10 digits
  return (numberedChar n, s)

/-- The characters with a basic name. -/
def namedChars : List (List Char × Char) :=
  [("amp".toList, '&'), ("lt".toList, '<'), ("gt".toList, '>'), ("quot".toList, '"'),
   ("apos".toList, '\'')]

/-- A character reference by name, such as `&amp;`. -/
def readNamed? : Reader Char := fun s => do
  let s ← afterStart? ['&'] s
  let (name, s) ← splitOnce ';' s
  let c ← namedChars.lookup name
  return (c, s)

/-- A character reference. -/
def readReference? : Reader Char := fun s => (readNumbered? s).or (readNamed? s)

/-- The text as a reader of markup sees it. -/
def decode (s : List Char) : List Char := substitute (fun c => [c]) (pieces readReference? s)

theorem readReference?_eq_none {c : Char} {s : List Char} (h : c ≠ '&') :
    readReference? (c :: s) = none := by
  have hnumber : afterStart? ['&', '#'] (c :: s) = none := if_neg (Ne.symm h)
  have hname : afterStart? ['&'] (c :: s) = none := if_neg (Ne.symm h)
  rw [readReference?, readNumbered?, readNamed?, hnumber, hname]
  rfl

/-- A text without the sign that starts references is its own meaning. -/
theorem decode_append {s : List Char} (h : '&' ∉ s) (rest : List Char) :
    decode (s ++ rest) = s ++ decode rest := by
  induction s with
  | nil => rfl
  | cons c s ih =>
    rw [List.mem_cons, not_or] at h
    rw [List.cons_append, decode, pieces_cons_of_none (readReference?_eq_none (Ne.symm h.1))]
    exact congrArg (c :: ·) (ih h.2)

example : decode "ja&#118;&#X61; &amp;&none;".toList = "java &&none;".toList := by decide +kernel

/-! ## References in targets -/

/-- The characters with a name: none of them is blank, a letter or a colon. -/
def isMark (c : Char) : Bool := namedChars.any fun entry => entry.2 = c

/-- Two texts start with the same character, or each with a mark. -/
def StartAlike (s s' : List Char) : Prop :=
  s'.head? = s.head? ∨ s.head?.any isMark = true ∧ s'.head?.any isMark = true

theorem mark_cases {c : Char} (h : isMark c = true) :
    isBlank c = false ∧ c.isAlpha = false ∧ c ≠ ':' := by
  have hall : ∀ entry ∈ namedChars,
      isBlank entry.2 = false ∧ entry.2.isAlpha = false ∧ entry.2 ≠ ':' := by decide
  obtain ⟨entry, hmem, hc⟩ := List.any_eq_true.1 h
  rw [← of_decide_eq_true hc]
  exact hall entry hmem

/-- A target keeps its scheme when what follows the letters changes, but starts alike. -/
theorem Lead.schemeOf?_congr {blanks letters rest rest' : List Char}
    (h : Lead blanks letters rest) (halike : StartAlike rest rest') :
    schemeOf? (blanks ++ (letters ++ rest')) = schemeOf? (blanks ++ (letters ++ rest)) := by
  rcases halike with hhead | ⟨hmark, hmark'⟩
  · have h' : Lead blanks letters rest' := by
      refine ⟨h.blank, h.alpha, ?_, by rw [hhead]; exact h.next⟩
      have hstart := h.start
      rw [List.head?_append] at hstart ⊢
      rwa [hhead]
    rw [h.schemeOf?_eq, h'.schemeOf?_eq, hhead]
  · obtain ⟨c, hc, hmark⟩ := Option.any_eq_true .. |>.1 hmark
    obtain ⟨d, hd, hmark'⟩ := Option.any_eq_true .. |>.1 hmark'
    obtain ⟨-, -, hcolon⟩ := mark_cases hmark
    obtain ⟨hblank', halpha', hcolon'⟩ := mark_cases hmark'
    have h' : Lead blanks letters rest' := by
      refine ⟨h.blank, h.alpha, ?_, ?_⟩
      · have hstart := h.start
        rw [List.head?_append] at hstart ⊢
        cases hletters : letters.head? with
        | none =>
          rw [Option.none_or, hd]
          rintro _ ⟨⟩
          exact hblank'
        | some letter =>
          rw [hletters] at hstart
          exact hstart
      · rw [hd]
        rintro _ ⟨⟩
        exact halpha'
    rw [h.schemeOf?_eq, h'.schemeOf?_eq, hc, hd, if_neg (by simpa using hcolon'),
      if_neg (by simpa using hcolon)]

/-- A target keeps its scheme under a change that leaves everything before a mark as it is. -/
theorem schemeOf?_eq_of_mark {f : List Char → List Char} {mark : Char} (hmark : isMark mark = true)
    (hf : ∀ s rest, mark ∉ s → f (s ++ rest) = s ++ f rest) {url : List Char}
    (halike : StartAlike (afterLead url) (f (afterLead url))) :
    schemeOf? (f url) = schemeOf? url := by
  obtain ⟨blanks, hurl, hlead⟩ := exists_lead url
  obtain ⟨hblank, halpha, -⟩ := mark_cases hmark
  have hblanks : mark ∉ blanks := by
    intro hmem
    rw [hlead.blank mark hmem] at hblank
    cases hblank
  have hletters : mark ∉ leadOf url := by
    intro hmem
    rw [hlead.alpha mark hmem] at halpha
    cases halpha
  calc schemeOf? (f url) = schemeOf? (f (blanks ++ (leadOf url ++ afterLead url))) := by rw [← hurl]
    _ = schemeOf? (blanks ++ (leadOf url ++ f (afterLead url))) := by
      rw [hf _ _ hblanks, hf _ _ hletters]
    _ = schemeOf? (blanks ++ (leadOf url ++ afterLead url)) := hlead.schemeOf?_congr halike
    _ = schemeOf? url := by rw [← hurl]

theorem hideQuotes_append {s : List Char} (h : '"' ∉ s) (rest : List Char) :
    hideQuotes (s ++ rest) = s ++ hideQuotes rest := by
  induction s with
  | nil => rfl
  | cons c s ih =>
    rw [List.mem_cons, not_or] at h
    rw [List.cons_append, hideQuotes, List.flatMap_cons, if_neg (Ne.symm h.1)]
    exact congrArg (c :: ·) (ih h.2)

/-- A target is refused or not whatever quotes are in it. -/
theorem schemeOf?_hideQuotes (url : List Char) : schemeOf? (hideQuotes url) = schemeOf? url := by
  have hquote : isMark '"' = true := by decide
  refine schemeOf?_eq_of_mark hquote (fun s rest => (hideQuotes_append · rest)) ?_
  cases hrest : afterLead url with
  | nil => exact .inl rfl
  | cons c rest =>
    rw [hideQuotes, List.flatMap_cons]
    split
    · rename_i hc
      subst hc
      have hsign : isMark '&' = true := by decide
      exact .inr ⟨hquote, hsign⟩
    · exact .inl rfl

/-- A reference by number stands where the letters of the target end. -/
def NumbersScheme (url : List Char) : Prop := (readNumbered? (afterLead url)).isSome = true

instance (url : List Char) : Decidable (NumbersScheme url) := inferInstanceAs (Decidable (_ = true))

theorem isMark_of_readNamed? {s rest : List Char} {c : Char} (h : readNamed? s = some (c, rest)) :
    isMark c = true := by
  obtain ⟨t, -, h⟩ := Option.bind_eq_some_iff.1 h
  obtain ⟨⟨name, t⟩, -, h⟩ := Option.bind_eq_some_iff.1 h
  obtain ⟨d, hlookup, h⟩ := Option.bind_eq_some_iff.1 h
  cases h
  obtain ⟨before, after, hentries, -⟩ := List.lookup_eq_some_iff.1 hlookup
  exact List.any_eq_true.2 ⟨(name, c), by rw [hentries]; simp, by simp⟩

theorem startAlike_decode {s : List Char} (h : readNumbered? s = none) :
    StartAlike s (decode s) := by
  cases s with
  | nil => exact .inl rfl
  | cons c s =>
    cases hread : readReference? (c :: s) with
    | none =>
      rw [decode, pieces_cons_of_none hread]
      exact .inl rfl
    | some read =>
      obtain ⟨d, rest⟩ := read
      have hc : c = '&' := by
        by_contra hne
        rw [readReference?_eq_none hne] at hread
        cases hread
      subst hc
      have hhead : (decode ('&' :: s)).head? = some d := by
        rw [decode, pieces, piecesAfter, hread]
        rfl
      rw [readReference?, h, Option.none_or] at hread
      have hsign : isMark '&' = true := by decide
      refine .inr ⟨hsign, ?_⟩
      rw [hhead]
      exact isMark_of_readNamed? hread

/-- A reader of markup sees the same scheme, unless a reference by number is in it. -/
theorem schemeOf?_decode {url : List Char} (h : ¬ NumbersScheme url) :
    schemeOf? (decode url) = schemeOf? url := by
  have hsign : isMark '&' = true := by decide
  refine schemeOf?_eq_of_mark hsign (fun s rest => (decode_append · rest)) ?_
  rw [NumbersScheme, Bool.not_eq_true, Option.isSome_eq_false_iff, Option.isNone_iff_eq_none] at h
  exact startAlike_decode h

/-! ## Links of a sanitized text -/

/-- What stands in the place of a link target: one that is not refused, with its quotes hidden. -/
theorem RawAttribute.exists_url_of_rewritten? {element : String} {a b : RawAttribute}
    (h : a.rewritten? element = some b) (hname : String.ofList b.name = "href") :
    ∃ url, isSafeUrl url = true ∧ b.value = some (hideQuotes url.toList) := by
  unfold rewritten? at h
  dsimp only at h
  split at h
  · cases h
    rw [String.ofList_toList] at hname
    rw [if_pos hname]
    exact ⟨_, isSafeUrl_safeUrl _, rfl⟩
  · cases h

/-- The target of every link that can be read in a seamless sanitized text is safe, and also for a
    reader that decodes it, unless a reference by number is in its scheme. -/
theorem isSafeUrl_of_mem_sanitize {html : String} (h : Seamless html) :
    ∀ t ∈ tagsIn (sanitize html).toList, ∀ a ∈ t.attributeList, String.ofList a.name = "href" →
      ∃ v ∈ a.value, isSafeUrl (String.ofList v) = true ∧
        (¬ NumbersScheme v → isSafeUrl (String.ofList (decode v)) = true) := by
  rw [tagsIn_sanitize h]
  intro u hu b hb hname
  obtain ⟨t, -, htu⟩ := List.mem_filterMap.1 hu
  rw [RawTag.attributeList_of_rewritten? htu] at hb
  split at hb
  · cases hb
  · obtain ⟨a, -, hab⟩ := List.mem_filterMap.1 hb
    obtain ⟨url, hurl, hvalue⟩ := RawAttribute.exists_url_of_rewritten? hab hname
    have hsafe : isSafeUrl (String.ofList (hideQuotes url.toList)) = true := by
      rw [← hurl]
      refine isSafeUrl_congr ?_
      rw [String.toList_ofList, schemeOf?_hideQuotes]
    refine ⟨_, hvalue, hsafe, fun hnumber => ?_⟩
    rw [← hsafe]
    refine isSafeUrl_congr ?_
    rw [String.toList_ofList, String.toList_ofList, schemeOf?_decode hnumber]

/-- A refused target is replaced, and a reference by name in another one changes nothing. -/
theorem isSafeUrl_of_mem_sanitize_reference :
    let html := "<A HREF=' JavaScript:f()'>x</A><a href='page?a=1&amp;b=2'>y</a>"
    let link : RawTag := ⟨false, ['a'], " href=\"page?a=1&amp;b=2\"".toList, true⟩
    let target : RawAttribute := ⟨"href".toList, some "page?a=1&amp;b=2".toList⟩
    Seamless html ∧ sanitize html = "<a href=\"#\">x</a><a href=\"page?a=1&amp;b=2\">y</a>" ∧
      link ∈ tagsIn (sanitize html).toList ∧ target ∈ link.attributeList ∧
      String.ofList target.name = "href" ∧
      ∃ v ∈ target.value, isSafeUrl (String.ofList v) = true ∧
        (¬ NumbersScheme v → isSafeUrl (String.ofList (decode v)) = true) := by
  intro html link target
  have hseamless : Seamless html := by decide +kernel
  have hout : sanitize html =
      "<a href=\"#\">x</a><a href=\"page?a=1&amp;b=2\">y</a>" := by decide +kernel
  have hlink : link ∈ tagsIn (sanitize html).toList := by
    rw [hout]
    decide +kernel
  have htarget : target ∈ link.attributeList := by decide +kernel
  have hname : String.ofList target.name = "href" := by decide +kernel
  exact ⟨hseamless, hout, hlink, htarget, hname,
    isSafeUrl_of_mem_sanitize hseamless link hlink target htarget hname⟩

/-- A reference by number hides the scheme: the target is kept, and read as a refused one. -/
theorem sanitize_keeps_numbered_scheme :
    ¬ ∀ html, ∀ t ∈ tagsIn (sanitize html).toList, String.ofList t.name = "a" →
      ∀ a ∈ t.attributeList, String.ofList a.name = "href" →
        ∃ v ∈ a.value, isSafeUrl (String.ofList (decode v)) = true := by
  intro h
  let html := "<a href=\"&#106;avascript:alert(1)\">x</a>"
  let link : RawTag := ⟨false, ['a'], " href=\"&#106;avascript:alert(1)\"".toList, true⟩
  let target : RawAttribute := ⟨"href".toList, some "&#106;avascript:alert(1)".toList⟩
  have hlink : link ∈ tagsIn (sanitize html).toList := by decide +kernel
  have htarget : target ∈ link.attributeList := by decide +kernel
  obtain ⟨v, hv, hsafe⟩ := h html link hlink rfl target htarget rfl
  cases hv
  revert hsafe
  decide +kernel

end Letterpress.Markup
