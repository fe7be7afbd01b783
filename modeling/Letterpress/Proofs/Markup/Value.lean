/-
  Values that are written as they are.

  * `tokensOf` reads markup as far as it is made of tags and texts, and takes all characters up to
    the closing quote as the value of an attribute.
  * `Inert t`: between double quotes, the text `t` means itself.
  * `prefix_value_iff`: **a value that is written as it is is read back if and only if it is
    inert**; in all other cases the tag that it stands in becomes another tag, or none.
-/
import Letterpress.Proofs.Markup.Token

namespace Letterpress.Markup

open Text

/-! ## Reading as far as possible -/

namespace Mode

/-- One step of a reader that leaves it to the closing quote where a value ends. -/
def pass : Mode → Char → Option (List Token × Mode)
  | value n as k v, c =>
    if c = '"' then some ([], after n (as ++ [(String.ofList k, String.ofList (decode v))]))
    else some ([], value n as k (v ++ [c]))
  | m, c => m.step c

/-- The tokens that are complete before the first character that fits nowhere. -/
def through : Mode → List Char → List Token
  | _, [] => []
  | m, c :: s => (m.pass c).elim [] fun (ts, next) => ts ++ next.through s

/-- The tokens of a text without such a character, and where the reader is behind it. -/
def passAll : Mode → List Char → Option (List Token × Mode)
  | m, [] => some ([], m)
  | m, c :: s =>
    (m.pass c).bind fun (ts, next) => (next.passAll s).map fun (us, last) => (ts ++ us, last)

end Mode

/-- The tokens of markup, as far as it is made of tags and texts. -/
def tokensOf (markup : String) : List Token := (Mode.text []).through markup.toList

example : tokensOf "<a b=\"1 < 2\" c=\"3\">x</a><d e=\"4\"5>y" =
    [.start "a" [("b", "1 < 2"), ("c", "3")], .text "x", .stop "a"] := by decide +kernel

/-- A text that means itself between double quotes. -/
structure Inert (t : String) : Prop where
  unquoted : '"' ∉ t.toList
  meaning : decode t.toList = t.toList

instance (t : String) : Decidable (Inert t) :=
  decidable_of_iff ('"' ∉ t.toList ∧ decode t.toList = t.toList)
    ⟨fun h => ⟨h.1, h.2⟩, fun h => ⟨h.unquoted, h.meaning⟩⟩

/-- Without the sign that starts references, a text has none. -/
theorem decode_of_notMem {s : List Char} (h : '&' ∉ s) : decode s = s := by
  have hnil : decode [] = [] := rfl
  have hdecode := decode_append h []
  rwa [List.append_nil, hnil, List.append_nil] at hdecode

theorem Inert.of_notMem {t : String} (hquote : '"' ∉ t.toList) (hand : '&' ∉ t.toList) :
    Inert t :=
  ⟨hquote, decode_of_notMem hand⟩

/-- References are longer than what they mean. -/
theorem length_decode_le (s : List Char) : (decode s).length ≤ s.length := by
  have hlength : (decode s).length = (pieces readReference? s).length := by
    rw [decode, substitute]
    induction pieces readReference? s with
    | nil => rfl
    | cons p ps ih => cases p <;> simpa using ih
  rw [hlength]
  exact length_pieces_le readReference? s

theorem textToken_toList {t : String} (h : t ≠ "") : textToken t.toList = [.text t] := by
  simp [textToken, h]

namespace Mode

variable {m m' : Mode} {n : String} {k s rest : List Char} {as : Attributes}

theorem through_cons (m : Mode) (c : Char) (s : List Char) :
    m.through (c :: s) = (m.pass c).elim [] fun (ts, next) => ts ++ next.through s := by
  rw [through]

theorem through_append {ts : List Token} (h : m.passAll s = some (ts, m')) :
    m.through (s ++ rest) = ts ++ m'.through rest := by
  induction s generalizing m ts with
  | nil => cases h; rfl
  | cons c s ih =>
    obtain ⟨⟨us, next⟩, hstep, h⟩ := Option.bind_eq_some_iff.1 h
    obtain ⟨⟨vs, last⟩, hrest, ⟨⟩⟩ := Option.map_eq_some_iff.1 h
    rw [List.cons_append, through_cons, hstep, Option.elim_some, List.append_assoc, ← ih hrest]

/-- A run of characters that are only collected. -/
theorem passAll_run {collect : List Char → Mode} {seen : List Char}
    (h : ∀ c ∈ s, ∀ seen, (collect seen).pass c = some ([], collect (seen ++ [c]))) :
    (collect seen).passAll s = some ([], collect (seen ++ s)) := by
  induction s generalizing seen with
  | nil => simp [passAll]
  | cons c s ih =>
    obtain ⟨hc, hs⟩ := List.forall_mem_cons.1 h
    simp [passAll, hc seen, ih hs]

/-- A text goes on to the next tag. -/
theorem passAll_text (h : ∀ c ∈ s, c ≠ '<') : (text []).passAll s = some ([], text s) :=
  passAll_run fun c hc seen => by simp [pass, step, h c hc]

/-- A value goes on to the first quote. -/
theorem passAll_value (h : '"' ∉ s) : (value n as k []).passAll s = some ([], value n as k s) :=
  passAll_run fun c hc seen => by simp [pass, ne_of_mem_of_not_mem hc h]

theorem through_value (h : '"' ∉ s) :
    (value n as k []).through (s ++ '"' :: rest) =
      (after n (as ++ [(String.ofList k, String.ofList (decode s))])).through rest := by
  rw [through_append (passAll_value h), through_cons, pass, if_pos rfl, Option.elim_some]
  rfl

/-- An inert text is read as the value that it is. -/
theorem through_inert {key t : String} (h : Inert t) :
    (value n as key.toList []).through (t.toList ++ '"' :: rest) =
      (after n (as ++ [(key, t)])).through rest := by
  rw [through_value h.unquoted, h.meaning, String.ofList_toList, String.ofList_toList]

/-! ## The tag that a value stands in -/

/-- The attributes of the tag that the reader is in. -/
def attributes? : Mode → Option Attributes
  | after _ as | gap _ as | key _ as _ | assigned _ as _ | value _ as _ _ | slash _ as => some as
  | text _ | opened _ | name _ _ => none

/-- An attribute that was read stays with its tag, until the tag is complete. -/
theorem attributes?_of_pass {c : Char} {ts : List Token} (h : m.pass c = some (ts, m'))
    (has : ∃ bs ∈ m.attributes?, as <+: bs) :
    (ts = [] ∧ ∃ bs ∈ m'.attributes?, as <+: bs) ∨ ∃ t, ts = [t] ∧ as <+: t.attributes := by
  obtain ⟨bs, hbs, has⟩ := has
  cases m with
  | text seen | opened closing | name closing n => cases hbs
  | after n read =>
    cases hbs
    simp only [pass, step, afterPart] at h
    split_ifs at h <;> cases h
    · exact .inl ⟨rfl, bs, rfl, has⟩
    · exact .inr ⟨_, rfl, has⟩
  | slash n read =>
    cases hbs
    simp only [pass, step] at h
    split_ifs at h
    cases h
    exact .inr ⟨_, rfl, has⟩
  | value n read k v =>
    cases hbs
    simp only [pass] at h
    split_ifs at h <;> cases h
    · exact .inl ⟨rfl, _, rfl, has.trans (List.prefix_append _ _)⟩
    · exact .inl ⟨rfl, bs, rfl, has⟩
  | gap n read | key n read k | assigned n read k =>
    cases hbs
    simp only [pass, step] at h
    split_ifs at h <;> cases h <;> exact .inl ⟨rfl, bs, rfl, has⟩

/-- The next token is the tag with the attributes that were read. -/
theorem attributes_of_through (has : ∃ bs ∈ m.attributes?, as <+: bs) :
    ∀ t ∈ (m.through s).head?, as <+: t.attributes := by
  induction s generalizing m with
  | nil => rintro t ⟨⟩
  | cons c s ih =>
    intro t ht
    rw [through_cons] at ht
    cases hstep : m.pass c with
    | none => rw [hstep] at ht; cases ht
    | some next =>
      obtain ⟨ts, next⟩ := next
      rw [hstep, Option.elim_some] at ht
      rcases attributes?_of_pass hstep has with ⟨rfl, hnext⟩ | ⟨u, rfl, hu⟩
      · exact ih hnext t ht
      · cases ht
        exact hu

/-- As a value, a text is read up to its first quote. -/
theorem exists_through_value (t rest : List Char) : ∃ w rest', w <+: t ∧ '"' ∉ w ∧
    (value n as k []).through (t ++ '"' :: rest) =
      (after n (as ++ [(String.ofList k, String.ofList (decode w))])).through rest' := by
  by_cases h : '"' ∈ t
  · obtain ⟨w, rest', rfl, hw⟩ := List.eq_append_cons_of_mem h
    refine ⟨w, rest' ++ '"' :: rest, List.prefix_append _ _, hw, ?_⟩
    rw [List.append_assoc, List.cons_append, through_value hw]
  · exact ⟨t, rest, List.prefix_rfl, h, through_value h⟩

end Mode

/-- **A value that is written as it is is read back if and only if it is inert.**  The tag that it
stands in comes next with all that follows, exactly if the text means itself and the tag is read on
behind the closing quote. -/
theorem prefix_value_iff {n key t : String} {as : Attributes} {tag : Token} {ts : List Token}
    {rest : List Char} (htag : as ++ [(key, t)] <+: tag.attributes) :
    tag :: ts <+: (Mode.value n as key.toList []).through (t.toList ++ '"' :: rest) ↔
      Inert t ∧ tag :: ts <+: (Mode.after n (as ++ [(key, t)])).through rest := by
  constructor
  case mpr =>
    rintro ⟨hinert, h⟩
    rwa [Mode.through_inert hinert]
  case mp =>
    intro h
    obtain ⟨w, rest', hw, hquote, hthrough⟩ : ∃ w rest', w <+: t.toList ∧ '"' ∉ w ∧
        (Mode.value n as key.toList []).through (t.toList ++ '"' :: rest) =
          (Mode.after n (as ++ [(String.ofList key.toList, String.ofList (decode w))])).through
            rest' := Mode.exists_through_value t.toList rest
    rw [String.ofList_toList] at hthrough
    have hread : as ++ [(key, String.ofList (decode w))] <+: tag.attributes := by
      have has : ∃ bs ∈ (Mode.after n (as ++ [(key, String.ofList (decode w))])).attributes?,
          as ++ [(key, String.ofList (decode w))] <+: bs := ⟨_, rfl, List.prefix_rfl⟩
      have hhead : tag ∈ ((Mode.after n (as ++ [(key, String.ofList (decode w))])).through
          rest').head? := by
        obtain ⟨more, hmore⟩ := h
        rw [← hthrough, ← hmore]
        rfl
      exact Mode.attributes_of_through has tag hhead
    have hvalue : decode w = t.toList := by
      have hsame := (List.prefix_of_prefix_length_le hread htag (by simp)).eq_of_length (by simp)
      have hlast : String.ofList (decode w) = t := by simpa using hsame
      rw [← hlast, String.toList_ofList]
    -- the value is as long as the text, so that nothing of the text is missing in it
    have hwhole : w = t.toList := by
      have hlength := length_decode_le w
      rw [hvalue] at hlength
      exact hw.eq_of_length_le hlength
    have hinert : Inert t := by
      rw [hwhole] at hquote hvalue
      exact ⟨hquote, hvalue⟩
    rw [Mode.through_inert hinert] at h
    exact ⟨hinert, h⟩

end Letterpress.Markup
