/-
  The grammar of attributes.

  * `RawAttribute.Written a text rest`: an attribute is written as `text` when `rest` follows, with
    its value in double or single quotes or without, or with no value.
    `readAttribute?_eq_some_iff`: such attributes are read, and no others.
  * `Found s as`: the attributes that are found in a text from left to right, and
    `found_iff`: these are the items of the text.
-/
import Letterpress.Proofs.Markup.Link

namespace Letterpress.Markup

open Text

/-! ## Values -/

/-- A value is written as a text when `rest` follows. -/
inductive ValueWritten : List Char → List Char → List Char → Prop
  | quoted {quote v rest} : quote = '"' ∨ quote = '\'' → quote ∉ v →
      ValueWritten v (quote :: (v ++ [quote])) rest
  | bare {v rest} : v ≠ [] → (∀ c ∈ v, isBareChar c = true) →
      (∀ c ∈ rest.head?, isBareChar c = false) → ValueWritten v v rest

variable {s v text rest : List Char}

theorem readValue?_of_bare {c : Char} (hc : isBareChar c = true) (s : List Char) :
    readValue? (c :: s) =
      if ((c :: s).span isBareChar).1.isEmpty then none else some ((c :: s).span isBareChar) := by
  have hdouble : c ≠ '"' := by
    rintro rfl
    exact absurd hc (by decide)
  have hsingle : c ≠ '\'' := by
    rintro rfl
    exact absurd hc (by decide)
  rw [readValue?]
  · simp [hdouble]
  · simp [hsingle]

theorem readValue?_eq_some_iff :
    readValue? s = some (v, rest) ↔ ∃ text, s = text ++ rest ∧ ValueWritten v text rest := by
  constructor
  · intro h
    unfold readValue? at h
    split at h
    · refine ⟨'"' :: (v ++ ['"']), ?_, .quoted (.inl rfl) (notMem_of_splitOnce h)⟩
      rw [splitOnce_eq_some h]
      simp
    · refine ⟨'\'' :: (v ++ ['\'']), ?_, .quoted (.inr rfl) (notMem_of_splitOnce h)⟩
      rw [splitOnce_eq_some h]
      simp
    · rw [List.span_eq_takeWhile_dropWhile] at h
      dsimp only at h
      split at h
      · cases h
      · rename_i hne
        cases h
        exact ⟨_, List.takeWhile_append_dropWhile.symm, .bare (mt List.isEmpty_iff.2 hne)
          (fun c hc => List.mem_takeWhile_imp hc) head?_dropWhile⟩
  · rintro ⟨text, rfl, hwritten⟩
    cases hwritten with
    | quoted hquote hv =>
      rw [List.cons_append, List.append_assoc]
      rcases hquote with rfl | rfl <;> exact splitOnce_append_cons hv
    | bare hne hv hrest =>
      cases v with
      | nil => exact absurd rfl hne
      | cons c v =>
        rw [List.cons_append, readValue?_of_bare (hv c List.mem_cons_self), ← List.cons_append,
          span_append hv hrest]
        rfl

/-- A value does not start with white space. -/
theorem ValueWritten.start (h : ValueWritten v text rest) :
    ∃ c s, text = c :: s ∧ isBlank c = false := by
  cases h with
  | quoted hquote _ =>
    refine ⟨_, _, rfl, ?_⟩
    rcases hquote with rfl | rfl <;> decide
  | bare hne hv _ =>
    cases v with
    | nil => exact absurd rfl hne
    | cons c v =>
      refine ⟨c, v, rfl, ?_⟩
      have hc := hv c List.mem_cons_self
      rw [isBareChar, Bool.not_eq_true'] at hc
      simp only [Bool.or_eq_false_iff] at hc
      exact hc.1.1.1.1.1.1

/-- A value with its equals sign is written as a text when `rest` follows. -/
inductive Assigned : List Char → List Char → List Char → Prop
  | intro {before after v text rest} : (∀ c ∈ before, isBlank c = true) →
      (∀ c ∈ after, isBlank c = true) → ValueWritten v text rest →
      Assigned v (before ++ '=' :: (after ++ text)) rest

theorem trimStart_append {blanks : List Char} (h : ∀ c ∈ blanks, isBlank c = true)
    (hs : ∀ c ∈ s.head?, isBlank c = false) : trimStart (blanks ++ s) = s := by
  have hspan := span_append h hs
  rw [List.span_eq_takeWhile_dropWhile] at hspan
  exact (Prod.mk.inj hspan).2

theorem exists_trimStart (s : List Char) :
    ∃ blanks, s = blanks ++ trimStart s ∧ ∀ c ∈ blanks, isBlank c = true :=
  ⟨s.takeWhile isBlank, List.takeWhile_append_dropWhile.symm, fun _ => List.mem_takeWhile_imp⟩

theorem readAssigned?_eq_some_iff :
    readAssigned? s = some (v, rest) ↔ ∃ text, s = text ++ rest ∧ Assigned v text rest := by
  constructor
  · intro h
    obtain ⟨t, ht, hv⟩ := Option.bind_eq_some_iff.1 h
    obtain ⟨text, htext, hwritten⟩ := readValue?_eq_some_iff.1 hv
    obtain ⟨before, hbefore, hblank⟩ := exists_trimStart s
    obtain ⟨after, hafter, hblank'⟩ := exists_trimStart t
    refine ⟨before ++ '=' :: (after ++ text), ?_, .intro hblank hblank' hwritten⟩
    rw [hbefore, afterStart?_eq_some_iff.1 ht, hafter, htext]
    simp
  · rintro ⟨_, rfl, hassigned⟩
    cases hassigned with
    | @intro before after v text rest hbefore hafter hwritten =>
      obtain ⟨c, text', rfl, hc⟩ := hwritten.start
      have hsign : afterStart? ['='] (trimStart (before ++ '=' :: (after ++ c :: text') ++ rest)) =
          some (after ++ (c :: text' ++ rest)) := by
        rw [List.append_assoc, trimStart_append hbefore (by simp; decide), afterStart?_eq_some_iff]
        simp
      have hstart : ∀ d ∈ (c :: text' ++ rest).head?, isBlank d = false := by
        rintro _ ⟨⟩
        exact hc
      rw [readAssigned?, hsign, Option.bind_eq_bind, Option.bind_some,
        trimStart_append hafter hstart]
      exact readValue?_eq_some_iff.2 ⟨_, rfl, hwritten⟩

/-! ## Attributes -/

theorem isBlank_eq_false_of_isNameChar {c : Char} (h : isNameChar c = true) :
    isBlank c = false := by
  have hdigit {c : Char} (h : c.isDigit = true) : 48 ≤ c.toNat ∧ c.toNat ≤ 57 := by
    unfold Char.isDigit at h
    simpa [UInt32.le_iff_toNat_le] using h
  simp only [isNameChar, Char.isAlphanum, Bool.or_eq_true, decide_eq_true_eq] at h
  rcases h with ((((h | h) | rfl) | rfl) | rfl) | rfl
  · rw [isAlpha_iff] at h
    exact isBlank_eq_false_of_toNat (by omega) (by omega)
  · have hc := hdigit h
    exact isBlank_eq_false_of_toNat (by omega) (by omega)
  all_goals decide

/-- A name ends before the equals sign of its value. -/
theorem Assigned.start (h : Assigned v text rest) :
    ∃ c s, text = c :: s ∧ isNameChar c = false := by
  cases h with
  | @intro before after v text rest hbefore _ _ =>
    cases before with
    | nil => exact ⟨'=', _, rfl, by decide⟩
    | cons c before =>
      refine ⟨c, _, rfl, ?_⟩
      by_contra hc
      have hblank := isBlank_eq_false_of_isNameChar (Bool.not_eq_false _ ▸ hc)
      rw [hbefore c List.mem_cons_self] at hblank
      cases hblank

namespace RawAttribute

/-- A name of an attribute. -/
inductive IsName : List Char → Prop
  | intro {c s} : isNameStart c = true → (∀ d ∈ s, isNameChar d = true) → IsName (c :: s)

/-- An attribute is written as a text when `rest` follows. -/
inductive Written : RawAttribute → List Char → List Char → Prop
  | assigned {name v text rest} : IsName name → Assigned v text rest →
      Written ⟨name, some v⟩ (name ++ text) rest
  | valueless {name rest} : IsName name → (∀ c ∈ rest.head?, isNameChar c = false) →
      (∀ v text rest', rest = text ++ rest' → ¬ Assigned v text rest') →
      Written ⟨name, none⟩ name rest

end RawAttribute

open RawAttribute (IsName Written)

variable {a : RawAttribute}

theorem readAttribute?_name {name : List Char} (h : IsName name) {s : List Char}
    (hs : ∀ c ∈ s.head?, isNameChar c = false) :
    readAttribute? (name ++ s) =
      some (match readAssigned? s with
        | some (v, rest) => (⟨name, some v⟩, rest)
        | none => (⟨name, none⟩, s)) := by
  cases h with
  | intro hstart hname =>
    rw [List.cons_append, readAttribute?, if_pos hstart, span_append hname hs]
    dsimp only
    split <;> simp_all

/-- **The attributes that are read** are those that are written. -/
theorem readAttribute?_eq_some_iff :
    readAttribute? s = some (a, rest) ↔ ∃ text, s = text ++ rest ∧ Written a text rest := by
  constructor
  · intro h
    cases s with
    | nil => cases h
    | cons c s =>
      have hstart : isNameStart c = true := by
        by_contra hc
        rw [readAttribute?, if_neg hc] at h
        cases h
      have hname : IsName (c :: s.takeWhile isNameChar) :=
        .intro hstart fun d hd => List.mem_takeWhile_imp hd
      have hs : c :: s = (c :: s.takeWhile isNameChar) ++ s.dropWhile isNameChar := by
        rw [List.cons_append, List.takeWhile_append_dropWhile]
      rw [hs, readAttribute?_name hname head?_dropWhile] at h
      rw [hs]
      split at h
      · rename_i hassigned
        cases h
        obtain ⟨text, htext, hwritten⟩ := readAssigned?_eq_some_iff.1 hassigned
        exact ⟨_, by rw [htext, List.append_assoc], .assigned hname hwritten⟩
      · rename_i hnone
        cases h
        refine ⟨_, rfl, .valueless hname head?_dropWhile fun v text rest heq hwritten => ?_⟩
        rw [readAssigned?_eq_some_iff.2 ⟨text, heq, hwritten⟩] at hnone
        cases hnone
  · rintro ⟨text, rfl, hwritten⟩
    cases hwritten with
    | @assigned name v text rest hname hassigned =>
      have hend : ∀ c ∈ (text ++ rest).head?, isNameChar c = false := by
        obtain ⟨c, s, rfl, hc⟩ := hassigned.start
        rintro _ ⟨⟩
        exact hc
      rw [List.append_assoc, readAttribute?_name hname hend,
        readAssigned?_eq_some_iff.2 ⟨text, rfl, hassigned⟩]
    | valueless hname hend hnone =>
      have hread : readAssigned? rest = none := by
        rw [Option.eq_none_iff_forall_not_mem]
        rintro ⟨v, rest'⟩ hmem
        obtain ⟨text, heq, hassigned⟩ := readAssigned?_eq_some_iff.1 hmem
        exact hnone v text rest' heq hassigned
      rw [readAttribute?_name hname hend, hread]

/-- The attributes that are found in a text, one after the other. -/
inductive Found : List Char → List RawAttribute → Prop
  | nil : Found [] []
  | skip {c s as} : isNameStart c = false → Found s as → Found (c :: s) as
  | take {a text rest as} : Written a text rest → Found rest as → Found (text ++ rest) (a :: as)

variable {as : List RawAttribute}

theorem RawAttribute.Written.ne_nil (h : Written a text rest) : text ≠ [] := by
  cases h with
  | assigned hname _ | valueless hname _ _ =>
    cases hname
    exact List.cons_ne_nil _ _

theorem Found.items_eq (h : Found s as) : items (pieces readAttribute? s) = as := by
  induction h with
  | nil => rw [pieces_nil]; rfl
  | skip hc _ ih =>
    rw [pieces_cons_of_none (readAttribute?_eq_none hc), ← ih]
    rfl
  | take hwritten _ ih =>
    have hread := readAttribute?_eq_some_iff.2 ⟨_, rfl, hwritten⟩
    rw [pieces_append_of_read hwritten.ne_nil hread, ← ih]
    rfl

theorem exists_found (s : List Char) : ∃ as, Found s as := by
  induction hlength : s.length using Nat.strong_induction_on generalizing s with
  | h n ih =>
    subst hlength
    cases s with
    | nil => exact ⟨[], .nil⟩
    | cons c s =>
      cases hread : readAttribute? (c :: s) with
      | none =>
        have hc : isNameStart c = false := by
          by_contra hc
          rw [readAttribute?, if_pos (Bool.not_eq_false _ ▸ hc)] at hread
          dsimp only at hread
          split at hread <;> cases hread
        obtain ⟨as, has⟩ := ih s.length (Nat.lt_succ_self _) s rfl
        exact ⟨as, .skip hc has⟩
      | some read =>
        obtain ⟨a, rest⟩ := read
        obtain ⟨text, htext, hwritten⟩ := readAttribute?_eq_some_iff.1 hread
        have hlt : rest.length < (c :: s).length := by
          have hpos := List.length_pos_iff.2 hwritten.ne_nil
          rw [htext, List.length_append]
          omega
        obtain ⟨as, has⟩ := ih rest.length hlt rest rfl
        exact ⟨a :: as, htext ▸ .take hwritten has⟩

/-- **The attributes that are found** are the items of the text. -/
theorem found_iff : Found s as ↔ items (pieces readAttribute? s) = as := by
  refine ⟨Found.items_eq, ?_⟩
  rintro rfl
  obtain ⟨as, has⟩ := exists_found s
  rwa [has.items_eq]

end Letterpress.Markup
