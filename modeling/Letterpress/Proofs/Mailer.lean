/-
  Required tags and the messages that wait for them.

  * `displayText_eq_empty_iff`: of all values, exactly the blank ones are written as nothing.
  * `run_alone`: a tag that is a text of its own is replaced by the text of its value.
  * `missingRequired_eq`: the keys that the check finds without a value are those whose tag would
    be replaced by nothing.
  * `required_tags_gate_sending`: **a message is prepared exactly if no required tag would stay
    empty**, and the refusal names the ones that would.
-/
import Letterpress.Mailer
import Letterpress.Proofs.Decimal.Layout
import Letterpress.Proofs.Tag.Template

namespace Letterpress

/-! ## Blank values -/

namespace Json

theorem Number.render_ne_empty (n : Number) : n.render ≠ "" := by
  cases n with
  | integer n =>
    rw [render, integerText, ne_eq, ← String.toList_eq_nil_iff]
    simp [Decimal.digitsOf_ne_nil]
  | real x => exact Decimal.Layout.render_ne_empty

/-- No value is written as nothing in JSON: zero, `false` and what is empty leave a text too. -/
theorem render_ne_empty (v : Json) : v.render ≠ "" := by
  cases v with
  | null => simp [render]
  | bool b => cases b <;> simp [render]
  | number n => simpa only [render] using n.render_ne_empty
  | string s => simp [render, quoted, ← String.toList_eq_nil_iff]
  | array items => simp [render, ← String.toList_eq_nil_iff]
  | object members => simp [render, ← String.toList_eq_nil_iff]

/-- **Exactly the blank values are written as nothing** in running text. -/
theorem displayText_eq_empty_iff (v : Option Json) :
    (v.getD .null).displayText = "" ↔ isBlank v = true := by
  cases v with
  | none => simp [displayText, isBlank]
  | some v =>
    cases v with
    | null => simp [displayText, isBlank]
    | string s => simp [displayText, isBlank]
    | bool b => simp [displayText, isBlank, render_ne_empty]
    | number n => simp [displayText, isBlank, render_ne_empty]
    | array items => simp [displayText, isBlank, render_ne_empty]
    | object members => simp [displayText, isBlank, render_ne_empty]

end Json

/-! ## A tag alone -/

/-- The text that is a tag and nothing else. -/
def Tag.alone (key : String) : String := "\x7b\x7b" ++ key ++ "\x7d\x7d"

namespace Processor
variable (p : Processor) (data : Members)

/-- A tag alone is replaced by the text of its value, whatever formatters there are. -/
theorem run_alone {key : String} (h : Tag.IsKey key.toList) :
    p.run (Tag.alone key) data =
      ((Json.resolve key (p.globals.merged data)).getD .null).displayText := by
  let form : Tag.TagForm := ⟨key, h, [], by simp⟩
  have hitems : (Tag.alone key).toList = [Tag.Item.part (.tag form)].flatMap Tag.Item.text := by
    simp [Tag.alone, Tag.Item.text, Tag.Part.text, Tag.TagForm.tag, Tag.text, Tag.pipesText,
      Tag.opening, Tag.closing, form]
  rw [run, hitems, Tag.selectBranches_itemsText, Tag.replaceTags_partsText]
  simp [Tag.Item.shown, Tag.Part.meaning, applyPipes, withDefault, form]

/-- **The check and the page agree**: the keys without a value are those whose tag would be
    replaced by nothing. -/
theorem missingRequired_eq {required : List String} (h : ∀ key ∈ required, Tag.IsKey key.toList) :
    missingRequired p.globals required data =
      required.filter fun key => p.run (Tag.alone key) data = "" := by
  refine List.filter_congr fun key hkey => ?_
  rw [p.run_alone data (h key hkey), Bool.eq_iff_iff, decide_eq_true_iff]
  exact (Json.displayText_eq_empty_iff _).symm

end Processor

/-! ## Refusals -/

theorem checkRequired_eq_ok_iff {globals : Globals} {t : Template} {data : Members} :
    checkRequired globals t data = .ok () ↔
      Processor.missingRequired globals t.requiredKeys data = [] := by
  rw [checkRequired]
  cases Processor.missingRequired globals t.requiredKeys data <;> simp

theorem checkRequired_of_missing {globals : Globals} {t : Template} {data : Members}
    (h : Processor.missingRequired globals t.requiredKeys data ≠ []) :
    checkRequired globals t data =
      .error (.missingTags t.slug (Processor.missingRequired globals t.requiredKeys data)) := by
  rw [checkRequired]
  split
  · contradiction
  · rfl

namespace Mailer
variable {m : Mailer} {t : Template} {data : Members}

/-- What fails the check is refused before anything is written. -/
theorem prepare_of_refused {f : Failure} (hchecks : m.checks = true)
    (h : checkRequired m.setup.processor.globals t data = .error f) :
    m.prepare t data = .error f := by
  simp [prepare, hchecks, h, bind, Except.bind]

/-- What passes the check, or is not checked, is as good as its compiled page. -/
theorem prepare_of_passed
    (h : m.checks = false ∨ checkRequired m.setup.processor.globals t data = .ok ()) :
    m.prepare t data =
      match m.setup.compiler (m.setup.markup t data) with
      | .error f => .error f
      | .ok compiled =>
        .ok ⟨Tag.mergePlain m.setup.processor.globals t.subject data,
          m.setup.processor.run compiled data⟩ := by
  have hpassed : m.prepare t data =
      (m.setup.render t data).map fun html =>
        ⟨Tag.mergePlain m.setup.processor.globals t.subject data, html⟩ := by
    rcases h with h | h <;>
      cases m.checks <;> simp_all [prepare, bind, pure, Except.bind, Except.pure, Except.map]
  rw [hpassed, Render.Setup.render, Render.Setup.finish]
  cases m.setup.compiler (m.setup.markup t data) <;> rfl

/-- **A message is prepared exactly if no required tag would stay empty.**  The check passes if and
    only if every required tag, alone in a text, is replaced by something; otherwise the refusal
    has the slug of the template and the keys of the tags that would stay empty, in the order of
    their declarations.  A mailer that checks gives this refusal whatever its compiler does, and in
    all other cases the failure of the compiler or the message. -/
theorem required_tags_gate_sending (m : Mailer) (t : Template) (data : Members)
    (keys : ∀ d ∈ t.tags, d.required = true → Tag.IsKey d.key.toList) :
    let p := m.setup.processor
    let required := (t.tags.filter (·.required)).map (·.key)
    let empty := required.filter fun key => p.run (Tag.alone key) data = ""
    (checkRequired p.globals t data = .ok () ↔
      ∀ d ∈ t.tags, d.required = true → p.run (Tag.alone d.key) data ≠ "") ∧
    (checkRequired p.globals t data ≠ .ok () →
      checkRequired p.globals t data = .error (.missingTags t.slug empty)) ∧
    (m.checks = true → empty ≠ [] → m.prepare t data = .error (.missingTags t.slug empty)) ∧
    (m.checks = false ∨ empty = [] → m.prepare t data =
      match m.setup.compiler (m.setup.markup t data) with
      | .error f => .error f
      | .ok compiled => .ok ⟨Tag.mergePlain p.globals t.subject data, p.run compiled data⟩) := by
  intro p required empty
  have hmissing : Processor.missingRequired p.globals t.requiredKeys data = empty := by
    refine p.missingRequired_eq data fun key hkey => ?_
    obtain ⟨d, hd, rfl⟩ := List.mem_map.1 hkey
    exact keys d (List.mem_of_mem_filter hd) (by simpa using List.of_mem_filter hd)
  have hok : checkRequired p.globals t data = .ok () ↔ empty = [] :=
    hmissing ▸ checkRequired_eq_ok_iff
  have herror (h : empty ≠ []) :
      checkRequired p.globals t data = .error (.missingTags t.slug empty) := by
    rw [← hmissing] at h ⊢
    exact checkRequired_of_missing h
  have hempty : empty = [] ↔ ∀ d ∈ t.tags, d.required = true →
      p.run (Tag.alone d.key) data ≠ "" := by
    simp only [empty, required, List.filter_eq_nil_iff, List.forall_mem_map, List.mem_filter,
      decide_eq_true_eq, and_imp, ne_eq]
  exact ⟨hok.trans hempty, fun h => herror (mt hok.2 h),
    fun hchecks h => prepare_of_refused hchecks (herror h),
    fun h => prepare_of_passed (h.imp_right hok.2)⟩

/-- Zero, `false` and an empty list are sent; an empty string, `null` and a missing value are not,
    and a global tag stands in only for what the data does not define. -/
theorem required_tags_gate_sending_of_kinds :
    let t : Template :=
      { (Template.make "Order" .none) with
        slug := "order"
        tags := ["count", "gift", "items", "buyer.name", "buyer.phone", "shop", "note",
          "year"].map fun key => .ofKey key true }
    let data : Members :=
      [("count", .int 0), ("gift", .bool false), ("items", .array []),
       ("buyer", .object [("name", .string "")]), ("note", .null)]
    let setup : Render.Setup :=
      { registry := .builtin
        processor := ⟨[("shop", .ofValue (.string "Tea")), ("note", .ofValue (.string "Hi"))],
          .builtin⟩
        compiler := fun s => .ok s
        defaults := .initial
        ids := ⟨fun _ => "", 0⟩ }
    (∀ d ∈ t.tags, d.required = true → Tag.IsKey d.key.toList) ∧
    (Mailer.mk setup true).prepare t data =
      .error (.missingTags "order" ["buyer.name", "buyer.phone", "note", "year"]) := by
  intro t data setup
  have hkeys : ∀ d ∈ t.tags, d.required = true → Tag.IsKey d.key.toList := by decide
  have hempty : ((t.tags.filter (·.required)).map (·.key)).filter (fun key =>
      setup.processor.run (Tag.alone key) data = "") =
      ["buyer.name", "buyer.phone", "note", "year"] := by decide +kernel
  obtain ⟨-, -, hrefused, -⟩ := required_tags_gate_sending ⟨setup, true⟩ t data hkeys
  refine ⟨hkeys, ?_⟩
  rw [← hempty]
  refine hrefused rfl ?_
  rw [hempty]
  exact List.cons_ne_nil _ _

end Mailer

end Letterpress
