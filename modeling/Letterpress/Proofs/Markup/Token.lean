/-
  Markup as tags and texts.

  * A `Token` is a tag, a text, or markup that is taken as it is; `writeAll` writes tokens.
  * `read` reads markup strictly, one character after the other: every sign that opens a tag has to
    belong to one, and every attribute to have a value in double quotes.
  * `read_writeAll`: what was written is read back, whatever characters the values and the texts
    are made of.  `shown` leaves out what is not written, and joins neighbouring texts.
  * `WellFormed`: every element is closed, in order, and has no attribute twice.
-/
import Letterpress.Markup.Attributes
import Letterpress.Proofs.Markup.Link

namespace Letterpress.Markup

open Text

/-! ## Escaped texts -/

theorem decode_reference {s rest : List Char} {c : Char} (hs : s ≠ [])
    (h : readReference? (s ++ rest) = some (c, rest)) : decode (s ++ rest) = c :: decode rest := by
  rw [decode, pieces_append_of_read hs h]
  rfl

theorem decode_escapeAttributeChar (c : Char) (rest : List Char) :
    decode (escapeAttributeChar c ++ rest) = c :: decode rest := by
  rw [escapeAttributeChar]
  split_ifs with hand hless hmore hquote
  · subst hand
    exact decode_reference (by decide) rfl
  · subst hless
    exact decode_reference (by decide) rfl
  · subst hmore
    exact decode_reference (by decide) rfl
  · subst hquote
    exact decode_reference (by decide) rfl
  · exact decode_append (by simpa using Ne.symm hand) rest

theorem decode_escapeTextChar (c : Char) (rest : List Char) :
    decode (escapeTextChar c ++ rest) = c :: decode rest := by
  rw [escapeTextChar]
  split_ifs with h
  · subst h
    exact decode_reference (by decide) rfl
  · exact decode_escapeAttributeChar c rest

/-- The value of an attribute means what was given. -/
theorem decode_escapeAttribute (s : List Char) : decode (escapeAttribute s) = s := by
  induction s with
  | nil => rfl
  | cons c s ih =>
    rw [escapeAttribute, List.flatMap_cons, decode_escapeAttributeChar]
    exact congrArg (c :: ·) ih

/-- A text means what was given. -/
theorem decode_escapeText (s : List Char) : decode (escapeText s) = s := by
  induction s with
  | nil => rfl
  | cons c s ih =>
    rw [escapeText, List.flatMap_cons, decode_escapeTextChar]
    exact congrArg (c :: ·) ih

theorem mem_escapeAttributeChar {c d : Char} (h : d ∈ escapeAttributeChar c) :
    d ≠ '"' ∧ d ≠ '<' ∧ d ≠ '>' := by
  have hnames : ∀ name ∈ ["&amp;", "&lt;", "&gt;", "&quot;"],
      '"' ∉ name.toList ∧ '<' ∉ name.toList ∧ '>' ∉ name.toList := by decide
  have hname : ∀ name ∈ ["&amp;", "&lt;", "&gt;", "&quot;"], d ∈ name.toList →
      d ≠ '"' ∧ d ≠ '<' ∧ d ≠ '>' := by
    intro name hname hd
    obtain ⟨hquote, hless, hmore⟩ := hnames name hname
    exact ⟨ne_of_mem_of_not_mem hd hquote, ne_of_mem_of_not_mem hd hless,
      ne_of_mem_of_not_mem hd hmore⟩
  rw [escapeAttributeChar] at h
  split_ifs at h with hand hless hmore hquote
  · exact hname _ (by simp) h
  · exact hname _ (by simp) h
  · exact hname _ (by simp) h
  · exact hname _ (by simp) h
  · rw [List.mem_singleton.1 h]
    exact ⟨hquote, hless, hmore⟩

/-- No value ends early, and none opens a tag or ends the one that it is in. -/
theorem mem_escapeAttribute {s : List Char} {d : Char} (h : d ∈ escapeAttribute s) :
    d ≠ '"' ∧ d ≠ '<' ∧ d ≠ '>' := by
  obtain ⟨c, -, hd⟩ := List.mem_flatMap.1 h
  exact mem_escapeAttributeChar hd

/-- No text opens a tag. -/
theorem mem_escapeText {s : List Char} {d : Char} (h : d ∈ escapeText s) : d ≠ '<' := by
  obtain ⟨c, -, hd⟩ := List.mem_flatMap.1 h
  rw [escapeTextChar] at hd
  split_ifs at hd with hc
  · have hname : '<' ∉ "&#x27;".toList := by decide
    exact ne_of_mem_of_not_mem hd hname
  · exact (mem_escapeAttributeChar hd).2.1

/-! ## Tokens -/

/-- A part of markup. -/
inductive Token where
  /-- A tag that opens an element. -/
  | start (name : String) (attributes : Attributes)
  /-- A tag that is an element without content. -/
  | empty (name : String) (attributes : Attributes)
  /-- A tag that closes an element. -/
  | stop (name : String)
  | text (content : String)
  /-- Markup that is taken as it is. -/
  | raw (markup : String)
deriving DecidableEq, Repr

namespace Token

/-- The attributes of a tag. -/
def attributes : Token → Attributes
  | start _ as | empty _ as => as
  | stop _ | text _ | raw _ => []

section

variable (name : String) (as : Attributes)

@[simp] theorem attributes_start : (start name as).attributes = as := rfl

@[simp] theorem attributes_empty : (empty name as).attributes = as := rfl

@[simp] theorem attributes_stop : (stop name).attributes = [] := rfl

@[simp] theorem attributes_text (content : String) : (text content).attributes = [] := rfl

@[simp] theorem attributes_raw (markup : String) : (raw markup).attributes = [] := rfl

end

/-- The markup of a token. -/
def write : Token → List Char
  | start name as => '<' :: name.toList ++ as.text.toList ++ ['>']
  | empty name as => '<' :: name.toList ++ as.text.toList ++ [' ', '/', '>']
  | stop name => ['<', '/'] ++ name.toList ++ ['>']
  | text content => escapeText content.toList
  | raw markup => markup.toList

end Token

/-- The markup of tokens. -/
def writeAll (ts : List Token) : String := String.ofList (ts.flatMap Token.write)

/-! ## Reading -/

/-- Where a reader of markup is. -/
inductive Mode where
  /-- In a text, behind what was seen of it. -/
  | text (seen : List Char)
  /-- Behind the sign that opens a tag, and maybe a slash. -/
  | opened (closing : Bool)
  | name (closing : Bool) (name : List Char)
  /-- Behind the name of a tag, or behind an attribute. -/
  | after (name : String) (read : Attributes)
  /-- Behind a space in a tag. -/
  | gap (name : String) (read : Attributes)
  | key (name : String) (read : Attributes) (key : List Char)
  | assigned (name : String) (read : Attributes) (key : List Char)
  | value (name : String) (read : Attributes) (key value : List Char)
  /-- Behind the slash of an element without content. -/
  | slash (name : String) (read : Attributes)
deriving DecidableEq

/-- A text, if there is anything in it. -/
def textToken (s : List Char) : List Token := if s.isEmpty then [] else [.text (String.ofList s)]

namespace Mode

/-- What may stand behind a name or an attribute. -/
def afterPart (name : String) (read : Attributes) (c : Char) : Option (List Token × Mode) :=
  if c = ' ' then some ([], gap name read)
  else if c = '>' then some ([.start name read], text [])
  else none

/-- The tokens that are complete with the next character, and where the reader is behind it. -/
def step : Mode → Char → Option (List Token × Mode)
  | text seen, c =>
    if c = '<' then some (textToken (decode seen), opened false)
    else some ([], text (seen ++ [c]))
  | opened closing, c =>
    if c = '/' ∧ closing = false then some ([], opened true)
    else if isNameStart c then some ([], name closing [c])
    else none
  | name closing n, c =>
    if isNameChar c then some ([], name closing (n ++ [c]))
    else if closing then
      if c = '>' then some ([.stop (String.ofList n)], text []) else none
    else afterPart (String.ofList n) [] c
  | after n as, c => afterPart n as c
  | gap n as, c =>
    if c = '/' then some ([], slash n as)
    else if isNameStart c then some ([], key n as [c])
    else none
  | key n as k, c =>
    if isNameChar c then some ([], key n as (k ++ [c]))
    else if c = '=' then some ([], assigned n as k)
    else none
  | assigned n as k, c => if c = '"' then some ([], value n as k []) else none
  | value n as k v, c =>
    if c = '"' then some ([], after n (as ++ [(String.ofList k, String.ofList (decode v))]))
    else if c = '<' then none
    else some ([], value n as k (v ++ [c]))
  | slash n as, c => if c = '>' then some ([.empty n as], text []) else none

/-- The tokens that the rest of the markup is made of. -/
def readRest : Mode → List Char → Option (List Token)
  | text seen, [] => some (textToken (decode seen))
  | _, [] => none
  | m, c :: s => (m.step c).bind fun (ts, next) => (next.readRest s).map (ts ++ ·)

end Mode

/-- The tokens that markup is made of; nothing if it is not made of tags and texts. -/
def read (markup : String) : Option (List Token) := (Mode.text []).readRest markup.toList

/-! ## What is read -/

/-- A name of an element or of an attribute. -/
def isName (name : String) : Bool :=
  name.toList.head?.any isNameStart && name.toList.all isNameChar

namespace Token

/-- A token with a meaning of its own. -/
def Readable : Token → Prop
  | start name as | empty name as => isName name = true ∧ ∀ a ∈ as, isName a.1 = true
  | stop name => isName name = true
  | text _ => True
  | raw _ => False

/-- The token with the attributes that are written. -/
def visible : Token → Token
  | start name as => start name as.written
  | empty name as => empty name as.written
  | t => t

end Token

/-- The tokens as they are read behind a text. -/
def shownAfter (before : List Char) : List Token → List Token
  | [] => textToken before
  | .text content :: ts => shownAfter (before ++ content.toList) ts
  | t :: ts => textToken before ++ t.visible :: shownAfter [] ts

/-- The tokens as they are read: attributes without a value are left out, and neighbouring texts
    are one. -/
def shown (ts : List Token) : List Token := shownAfter [] ts

/-! ## Reading what was written -/

namespace Mode

variable {m m' : Mode} {name key : String} {c : Char} {s rest seen : List Char}

theorem readRest_cons (m : Mode) (c : Char) (s : List Char) :
    m.readRest (c :: s) = (m.step c).bind fun (ts, next) => (next.readRest s).map (ts ++ ·) := by
  rw [readRest]

theorem readRest_of_step {ts : List Token} (h : m.step c = some (ts, m')) :
    m.readRest (c :: s) = (m'.readRest s).map (ts ++ ·) := by
  rw [readRest_cons, h, Option.bind_some]

theorem readRest_of_quiet (h : m.step c = some ([], m')) :
    m.readRest (c :: s) = m'.readRest s := by
  simp [readRest_of_step h]

/-- A run of characters that are only collected. -/
theorem readRest_run {collect : List Char → Mode}
    (h : ∀ c ∈ s, ∀ seen, (collect seen).step c = some ([], collect (seen ++ [c]))) :
    (collect seen).readRest (s ++ rest) = (collect (seen ++ s)).readRest rest := by
  induction s generalizing seen with
  | nil => simp
  | cons c s ih =>
    obtain ⟨hc, hs⟩ := List.forall_mem_cons.1 h
    rw [List.cons_append, readRest_of_quiet (hc seen), ih hs]
    simp

theorem readRest_name {collect : List Char → Mode} (hname : isName name = true)
    (hstart : ∀ c, isNameStart c = true → m.step c = some ([], collect [c]))
    (hchar : ∀ c, isNameChar c = true →
      ∀ seen, (collect seen).step c = some ([], collect (seen ++ [c]))) :
    m.readRest (name.toList ++ rest) = (collect name.toList).readRest rest := by
  rw [isName, Bool.and_eq_true, Option.any_eq_true, List.all_eq_true] at hname
  obtain ⟨⟨c, hc, hcstart⟩, hall⟩ := hname
  obtain ⟨cs, hcs⟩ := List.head?_eq_some_iff.1 hc
  rw [hcs] at hall ⊢
  rw [List.cons_append, readRest_of_quiet (hstart c hcstart),
    readRest_run fun d hd => hchar d (hall d (List.mem_cons_of_mem c hd))]
  rfl

theorem ne_slash_of_isNameStart (h : isNameStart c = true) : c ≠ '/' := by
  rintro rfl
  exact absurd h (by decide)

/-- The name of a tag. -/
theorem readRest_tagName {closing : Bool} (hname : isName name = true) :
    (opened closing).readRest (name.toList ++ rest) =
      (Mode.name closing name.toList).readRest rest := by
  refine readRest_name hname (fun c hc => ?_) fun c hc seen => ?_
  · simp [step, ne_slash_of_isNameStart hc, hc]
  · simp [step, hc]

variable {as bs : Attributes}

/-- The name of an attribute. -/
theorem readRest_key (hkey : isName key = true) :
    (gap name as).readRest (key.toList ++ rest) = (Mode.key name as key.toList).readRest rest := by
  refine readRest_name hkey (fun c hc => ?_) fun c hc seen => ?_
  · simp [step, ne_slash_of_isNameStart hc, hc]
  · simp [step, hc]

/-- The value of an attribute. -/
theorem readRest_value {k : List Char} :
    (value name as k []).readRest (escapeAttribute s ++ rest) =
      (value name as k (escapeAttribute s)).readRest rest := by
  refine readRest_run fun c hc seen => ?_
  obtain ⟨hquote, hless, -⟩ := mem_escapeAttribute hc
  simp [step, hquote, hless]

/-- A text. -/
theorem readRest_text :
    (text seen).readRest (escapeText s ++ rest) = (text (seen ++ escapeText s)).readRest rest := by
  refine readRest_run fun c hc seen => ?_
  simp [step, mem_escapeText hc]

/-- An attribute is read back. -/
theorem readRest_attribute {v : String} (hkey : isName key = true) :
    (after name as).readRest (Attributes.attributeText key v ++ rest) =
      (after name (as ++ [(key, v)])).readRest rest := by
  have hspace : (after name as).step ' ' = some ([], gap name as) := rfl
  have hequals : (Mode.key name as key.toList).step '=' =
      some ([], assigned name as key.toList) := rfl
  have hopen : (assigned name as key.toList).step '"' = some ([], value name as key.toList []) :=
    rfl
  have hclose : (value name as key.toList (escapeAttribute v.toList)).step '"' =
      some ([], after name (as ++ [(key, v)])) := by
    simp [step, decode_escapeAttribute]
  have htext : Attributes.attributeText key v ++ rest =
      ' ' :: (key.toList ++ '=' :: '"' :: (escapeAttribute v.toList ++ '"' :: rest)) := by
    simp [Attributes.attributeText]
  rw [htext, readRest_of_quiet hspace, readRest_key hkey, readRest_of_quiet hequals,
    readRest_of_quiet hopen, readRest_value, readRest_of_quiet hclose]

theorem readRest_attributes (h : ∀ b ∈ bs, isName b.1 = true) :
    (after name as).readRest (bs.flatMap (fun b => Attributes.attributeText b.1 b.2) ++ rest) =
      (after name (as ++ bs)).readRest rest := by
  induction bs generalizing as with
  | nil => simp
  | cons b bs ih =>
    obtain ⟨hb, hbs⟩ := List.forall_mem_cons.1 h
    rw [List.flatMap_cons, List.append_assoc, readRest_attribute hb, ih hbs]
    simp

/-- Behind the name of a tag stands the same as behind an attribute. -/
theorem readRest_behind_name (hc : isNameChar c = false) :
    (Mode.name false name.toList).readRest (c :: s) = (after name []).readRest (c :: s) := by
  have hstep : (Mode.name false name.toList).step c = (after name []).step c := by
    simp [step, hc]
  rw [readRest_cons, readRest_cons, hstep]

/-- The attributes of a tag, behind its name. -/
theorem readRest_tagText (h : ∀ a ∈ as, isName a.1 = true) (hc : isNameChar c = false) :
    (Mode.name false name.toList).readRest (as.text.toList ++ c :: rest) =
      (after name as.written).readRest (c :: rest) := by
  have hwritten : ∀ a ∈ as.written, isName a.1 = true := fun a ha =>
    h a (List.mem_filter.1 ha).1
  have hread : (after name []).readRest
      (as.written.flatMap (fun a => Attributes.attributeText a.1 a.2) ++ c :: rest) =
        (after name as.written).readRest (c :: rest) := readRest_attributes hwritten
  rw [Attributes.text, String.toList_ofList, ← hread]
  -- the name ends at the space before the first attribute, or at what follows the tag's text
  cases as.written with
  | nil => exact readRest_behind_name hc
  | cons a as => exact readRest_behind_name (by decide)

/-- Every other token is read back, with the text before it. -/
theorem readRest_token {t : Token} (h : t.Readable) (ht : ∀ content, t ≠ .text content) :
    (text seen).readRest (t.write ++ rest) =
      ((text []).readRest rest).map (textToken (decode seen) ++ t.visible :: ·) := by
  have hopen : (text seen).step '<' = some (textToken (decode seen), opened false) := rfl
  cases t with
  | start name as =>
    have hclose : (after name as.written).step '>' = some ([.start name as.written], text []) := rfl
    have htext : (Token.start name as).write ++ rest =
        '<' :: (name.toList ++ (as.text.toList ++ '>' :: rest)) := by
      simp [Token.write]
    rw [htext, readRest_of_step hopen, readRest_tagName h.1, readRest_tagText h.2 (by decide),
      readRest_of_step hclose]
    simp [Function.comp_def, Token.visible]
  | empty name as =>
    have hspace : (after name as.written).step ' ' = some ([], gap name as.written) := rfl
    have hslash : (gap name as.written).step '/' = some ([], slash name as.written) := rfl
    have hclose : (slash name as.written).step '>' = some ([.empty name as.written], text []) := rfl
    have htext : (Token.empty name as).write ++ rest =
        '<' :: (name.toList ++ (as.text.toList ++ ' ' :: '/' :: '>' :: rest)) := by
      simp [Token.write]
    rw [htext, readRest_of_step hopen, readRest_tagName h.1, readRest_tagText h.2 (by decide),
      readRest_of_quiet hspace, readRest_of_quiet hslash, readRest_of_step hclose]
    simp [Function.comp_def, Token.visible]
  | stop name =>
    have hslash : (opened false).step '/' = some ([], opened true) := rfl
    have hclose : (Mode.name true name.toList).step '>' = some ([.stop name], text []) := by
      simp [step, isNameChar]
    have htext : (Token.stop name).write ++ rest = '<' :: '/' :: (name.toList ++ '>' :: rest) := by
      simp [Token.write]
    rw [htext, readRest_of_step hopen, readRest_of_quiet hslash, readRest_tagName h,
      readRest_of_step hclose]
    simp [Function.comp_def, Token.visible]
  | text content => exact absurd rfl (ht content)
  | raw markup => exact absurd h id

/-- Tokens are read back behind a text. -/
theorem readRest_writeAll {ts : List Token} (h : ∀ t ∈ ts, t.Readable) (before : List Char) :
    (text (escapeText before)).readRest (ts.flatMap Token.write) =
      some (shownAfter before ts) := by
  -- the text before is still pending: it is complete with the next tag, or at the end
  induction ts generalizing before with
  | nil => simp [readRest, decode_escapeText, shownAfter]
  | cons t ts ih =>
    obtain ⟨ht, hts⟩ := List.forall_mem_cons.1 h
    rw [List.flatMap_cons]
    cases t with
    | text content =>
      have hjoin : escapeText before ++ escapeText content.toList =
          escapeText (before ++ content.toList) := List.flatMap_append.symm
      rw [Token.write, readRest_text, hjoin, ih hts, shownAfter]
    | _ =>
      have hrest : (text []).readRest (ts.flatMap Token.write) = some (shownAfter [] ts) :=
        ih hts []
      rw [readRest_token ht nofun, hrest, decode_escapeText]
      rfl

end Mode

/-- **Tokens are read back as they were written**, whatever is in their values and texts. -/
theorem read_writeAll {ts : List Token} (h : ∀ t ∈ ts, t.Readable) :
    read (writeAll ts) = some (shown ts) := by
  rw [read, writeAll, String.toList_ofList]
  exact Mode.readRest_writeAll h []

example : read "<p id=\"1&amp;2\">a &lt; b<br /></p>" =
    some [.start "p" [("id", "1&2")], .text "a < b", .empty "br" [], .stop "p"] := by decide +kernel

/-! ## Well-formed markup -/

namespace Token

/-- The elements that are open behind a token, the innermost first. -/
def enter (opened : List String) : Token → Option (List String)
  | start name _ => some (name :: opened)
  | stop name => if opened.head? = some name then some opened.tail else none
  | empty _ _ | text _ | raw _ => some opened

theorem enter_visible (opened : List String) (t : Token) :
    t.visible.enter opened = t.enter opened := by
  cases t <;> rfl

end Token

/-- Every element is closed, in order, and has no attribute twice. -/
structure WellFormed (ts : List Token) : Prop where
  nested : ts.foldlM Token.enter [] = some []
  distinct : ∀ t ∈ ts, (t.attributes.map Prod.fst).Nodup

theorem foldlM_enter_textToken (opened : List String) (s : List Char) :
    (textToken s).foldlM Token.enter opened = some opened := by
  rw [textToken]
  split <;> rfl

theorem foldlM_enter_shownAfter (opened : List String) (before : List Char) (ts : List Token) :
    (shownAfter before ts).foldlM Token.enter opened = ts.foldlM Token.enter opened := by
  induction ts generalizing opened before with
  | nil => exact foldlM_enter_textToken opened before
  | cons t ts ih =>
    cases t with
    | text content =>
      rw [shownAfter, ih]
      rfl
    | _ => simp [shownAfter, foldlM_enter_textToken, Token.enter_visible, ih]

theorem mem_shownAfter {before : List Char} {ts : List Token} {t : Token}
    (h : t ∈ shownAfter before ts) : (∃ content, t = .text content) ∨ ∃ u ∈ ts, t = u.visible := by
  have htext : ∀ s, t ∈ textToken s → ∃ content, t = .text content := by
    intro s ht
    rw [textToken] at ht
    split at ht
    · cases ht
    · exact ⟨_, List.mem_singleton.1 ht⟩
  induction ts generalizing before with
  | nil => exact .inl (htext before h)
  | cons u ts ih =>
    have hrest : ∀ {before}, t ∈ shownAfter before ts →
        (∃ content, t = .text content) ∨ ∃ v ∈ u :: ts, t = v.visible := by
      intro before ht
      exact (ih ht).imp_right fun ⟨v, hv, htv⟩ => ⟨v, List.mem_cons_of_mem u hv, htv⟩
    cases u with
    | text content => exact hrest h
    | _ =>
      rcases List.mem_append.1 h with h | h
      · exact .inl (htext before h)
      · rcases List.mem_cons.1 h with h | h
        · exact .inr ⟨_, List.mem_cons_self, h⟩
        · exact hrest h

theorem written_sublist (as : Attributes) : as.written.Sublist as := List.filter_sublist

theorem WellFormed.shown {ts : List Token} (h : WellFormed ts) : WellFormed (shown ts) := by
  refine ⟨(foldlM_enter_shownAfter [] [] ts).trans h.nested, fun t ht => ?_⟩
  rcases mem_shownAfter ht with ⟨content, rfl⟩ | ⟨u, hu, rfl⟩
  · exact List.nodup_nil
  · have hdistinct := h.distinct u hu
    cases u with
    | start name as | empty name as =>
      exact hdistinct.sublist ((written_sublist as).map Prod.fst)
    | _ => exact hdistinct

/-! ## Vocabularies -/

/-- Elements, each with the attributes that it may have, in order. -/
abbrev Vocabulary := List (String × List String)

/-- All names can be read, and no element has two attributes of one name. -/
def Vocabulary.Sound (v : Vocabulary) : Prop :=
  ∀ entry ∈ v, isName entry.1 = true ∧ (∀ key ∈ entry.2, isName key = true) ∧ entry.2.Nodup

instance (v : Vocabulary) : Decidable v.Sound :=
  inferInstanceAs (Decidable (∀ entry ∈ v, _ ∧ _ ∧ _))

/-- The names of the token are in the vocabulary, those of the attributes in its order. -/
def Token.Within (v : Vocabulary) : Token → Prop
  | start name as | empty name as => ∃ keys, (name, keys) ∈ v ∧ (as.map Prod.fst).Sublist keys
  | stop name => ∃ keys, (name, keys) ∈ v
  | text _ => True
  | raw _ => False

variable {v : Vocabulary} {t : Token} {ts : List Token}

theorem Token.Within.visible (h : t.Within v) : t.visible.Within v := by
  cases t with
  | start name as | empty name as =>
    obtain ⟨keys, hmem, hkeys⟩ := h
    exact ⟨keys, hmem, ((written_sublist as).map Prod.fst).trans hkeys⟩
  | _ => exact h

theorem within_shown (h : ∀ t ∈ ts, t.Within v) : ∀ t ∈ shown ts, t.Within v := by
  intro t ht
  rcases mem_shownAfter ht with ⟨content, rfl⟩ | ⟨u, hu, rfl⟩
  · exact trivial
  · exact (h u hu).visible

theorem Token.Within.readable (hv : v.Sound) (h : t.Within v) : t.Readable := by
  cases t with
  | start name as | empty name as =>
    obtain ⟨keys, hmem, hkeys⟩ := h
    obtain ⟨hname, hkey, -⟩ := hv _ hmem
    exact ⟨hname, fun a ha => hkey a.1 (hkeys.subset (List.mem_map_of_mem ha))⟩
  | stop name =>
    obtain ⟨keys, hmem⟩ := h
    exact (hv _ hmem).1
  | text content => trivial
  | raw markup => exact h

theorem Token.Within.distinct (hv : v.Sound) (h : t.Within v) :
    (t.attributes.map Prod.fst).Nodup := by
  cases t with
  | start name as | empty name as =>
    obtain ⟨keys, hmem, hkeys⟩ := h
    exact (hv _ hmem).2.2.sublist hkeys
  | _ => exact List.nodup_nil

end Letterpress.Markup
