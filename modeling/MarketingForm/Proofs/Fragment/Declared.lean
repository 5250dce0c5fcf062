import MarketingForm.Fragment.Basic
import MarketingForm.Proofs.Form.Resolve

/-!
# What a fragment shows of the properties

A fragment takes the texts of some properties (`Kind.shown`), its choices, and two properties as switches.
All of them are declared by the field's kind, so fields that agree on them have the same element
(`element_congr`). In particular the order of a bag, names that are not declared, and defaults that are
stored or left out make no difference to the markup (`render_of_declared`).
-/

namespace MarketingForm

namespace Kind

/-- The kinds whose fields take input: all but those that only lay out a page. -/
def TakesInput (k : Kind) : Prop := k.definition.category ≠ .layout

/-- The kinds whose fields offer choices. -/
def OffersChoices (k : Kind) : Prop := k.definition.category = .selection

instance : DecidablePred TakesInput := fun k => inferInstanceAs (Decidable (k.definition.category ≠ _))

instance : DecidablePred OffersChoices := fun k =>
  inferInstanceAs (Decidable (k.definition.category = _))

/-- The properties whose texts the fragments of a kind show. -/
def shown : Kind → List String
  | text => ["label", "placeholder", "logicalName", "maxLength"]
  | email | phone | dateTime => ["label", "placeholder", "logicalName"]
  | textArea => ["label", "placeholder", "logicalName", "rows", "maxLength"]
  | dropdown | checkbox => ["label", "logicalName"]
  | radio => ["label", "logicalName", "defaultValue"]
  | consent => ["label", "complianceSettingsId", "complianceSettingsName", "purposeId", "purposeName",
      "channels", "optInWhenChecked"]
  | textBlock => ["content", "tag", "align"]
  | divider => ["color", "thickness"]
  | submit => ["buttonText"]

theorem declared_of_shown {k : Kind} {name : String} (h : name ∈ k.shown) :
    name ∈ k.declared ∧ name ≠ "required" ∧ name ≠ "prefill" := by
  have hall : ∀ k : Kind, ∀ name ∈ k.shown,
      name ∈ k.declared ∧ name ≠ "required" ∧ name ≠ "prefill" := by
    intro k
    cases k <;> decide
  exact hall k name h

theorem OffersChoices.declared {k : Kind} (h : k.OffersChoices) : "options" ∈ k.declared := by
  revert h
  cases k <;> decide

theorem TakesInput.declared {k : Kind} (h : k.TakesInput) :
    "required" ∈ k.declared ∧ "prefill" ∈ k.declared := by
  revert h
  cases k <;> decide

end Kind

/-- Two bags of effective properties of one kind agree on what a fragment takes from them. -/
structure Resolved.AgreeOn (k : Kind) (r s : Resolved) : Prop where
  left : r.kind = k
  right : s.kind = k
  text : ∀ name ∈ k.shown, r.text name = s.text name
  choices : k.OffersChoices → r.choices "options" = s.choices "options"
  required : k.TakesInput → r.isOn "required" = s.isOn "required"
  prefill : k.TakesInput → r.isOn "prefill" = s.isOn "prefill"

namespace Resolved

section

variable {r s : Resolved} {name : String} (h : r.get? name = s.get? name)
include h

theorem text_congr : r.text name = s.text name := by
  rw [text, text, h]

theorem choices_congr : r.choices name = s.choices name := by
  rw [choices, choices, h]

theorem isOn_congr : r.isOn name = s.isOn name := by
  rw [isOn, isOn, h]

end

section

variable {r : Resolved} {name : String} {v : Value} (h : r.props.get? name = some v)
include h

theorem text_of_get? : r.text name = v.asText := by
  rw [text, get?, h]

theorem isOn_of_get? : r.isOn name = v.isOn := by
  rw [isOn, get?, h]

end

theorem AgreeOn.of_get? {k : Kind} {r s : Resolved} (hr : r.kind = k) (hs : s.kind = k)
    (h : ∀ name ∈ k.declared, r.get? name = s.get? name) : AgreeOn k r s where
  left := hr
  right := hs
  text _ hname := text_congr (h _ (Kind.declared_of_shown hname).1)
  choices hk := choices_congr (h _ hk.declared)
  required hk := isOn_congr (h _ hk.declared.1)
  prefill hk := isOn_congr (h _ hk.declared.2)

end Resolved

namespace Fragment

section

variable {k : Kind} {r s : Resolved} (h : r.AgreeOn k s) (id : FieldId)
include h

theorem definition_congr : definition r = definition s := by
  rw [definition, definition, h.left, h.right]

theorem controlId_congr (hname : "logicalName" ∈ k.shown) : controlId r id = controlId s id := by
  rw [controlId, controlId, h.text _ hname]

theorem boundWrapper_congr (hname : "logicalName" ∈ k.shown) : boundWrapper r = boundWrapper s := by
  rw [boundWrapper, boundWrapper, definition_congr h, h.text _ hname]

theorem mark_congr (hk : k.TakesInput) (w : Element) : mark w r = mark w s := by
  rw [mark, mark, h.required hk, h.prefill hk]

theorem markControl_congr (hk : k.TakesInput) (e : Element) : markControl e r = markControl e s := by
  rw [markControl, markControl, h.required hk]

theorem label_congr (hlabel : "label" ∈ k.shown) (forId : String) (block : Bool) :
    label r forId block = label s forId block := by
  rw [label, label, h.text _ hlabel]

theorem choiceWrapper_congr (hk : k.OffersChoices) (hinput : k.TakesInput)
    (hname : "logicalName" ∈ k.shown) : choiceWrapper r = choiceWrapper s := by
  rw [choiceWrapper, choiceWrapper, boundWrapper_congr h hname, h.choices hk, mark_congr h hinput]

end

section

variable {r s : Resolved} (id : FieldId)

theorem inputBlock_congr {k : Kind} (h : r.AgreeOn k s) (hk : k.TakesInput)
    (hshown : ["label", "placeholder", "logicalName"] ⊆ k.shown) (type : String)
    {extra extra' : Element → Element} (hextra : extra = extra') :
    inputBlock r id type extra = inputBlock s id type extra' := by
  have hlabel : "label" ∈ k.shown := hshown (by decide)
  have hplaceholder : "placeholder" ∈ k.shown := hshown (by decide)
  have hname : "logicalName" ∈ k.shown := hshown (by decide)
  simp only [inputBlock, controlId_congr h id hname, boundWrapper_congr h hname, mark_congr h hk,
    markControl_congr h hk, label_congr h hlabel, h.text _ hlabel, h.text _ hplaceholder,
    h.text _ hname, hextra]

theorem textArea_congr (h : r.AgreeOn .textArea s) : textArea r id = textArea s id := by
  simp (disch := decide) only [textArea, controlId_congr h, boundWrapper_congr h, mark_congr h,
    markControl_congr h, label_congr h, h.text]

theorem dropdown_congr (h : r.AgreeOn .dropdown s) : dropdown r id = dropdown s id := by
  simp (disch := decide) only [dropdown, controlId_congr h, boundWrapper_congr h, mark_congr h,
    markControl_congr h, label_congr h, h.text, h.choices]

theorem checkbox_congr (h : r.AgreeOn .checkbox s) : checkbox r id = checkbox s id := by
  simp (disch := decide) only [checkbox, controlId_congr h, choiceWrapper_congr h, markControl_congr h,
    label_congr h, h.text, h.choices]

theorem radio_congr (h : r.AgreeOn .radio s) : radio r id = radio s id := by
  have hbutton : radioButton r id = radioButton s id := by
    funext i c
    simp (disch := decide) only [radioButton, controlId_congr h, markControl_congr h, h.text]
  simp (disch := decide) only [radio, hbutton, controlId_congr h, choiceWrapper_congr h, label_congr h,
    h.choices]

theorem consent_congr (h : r.AgreeOn .consent s) : consent r id = consent s id := by
  simp (disch := decide) only [consent, consentValue, definition_congr h, markControl_congr h, h.text,
    h.required, h.prefill]

omit id in
theorem textBlock_congr (h : r.AgreeOn .textBlock s) : textBlock r = textBlock s := by
  simp (disch := decide) only [textBlock, definition_congr h, h.text]

omit id in
theorem divider_congr (h : r.AgreeOn .divider s) : divider r = divider s := by
  have hstyle : dividerStyle r = dividerStyle s := by
    unfold dividerStyle
    rw [h.text "thickness" (by decide), h.text "color" (by decide)]
  rw [divider, divider, definition_congr h, hstyle]

omit id in
theorem submit_congr (h : r.AgreeOn .submit s) : submit r = submit s := by
  simp (disch := decide) only [submit, definition_congr h, h.text]

/-- The rules take nothing from the properties but what is compared. -/
theorem element_congr {k : Kind} (h : r.AgreeOn k s) : r.element id = s.element id := by
  unfold Resolved.element
  rw [h.left, h.right]
  cases k with
  | text =>
    refine inputBlock_congr id h (by decide) (by decide) "text" ?_
    rw [h.text "maxLength" (by decide)]
  | email => exact inputBlock_congr id h (by decide) (by decide) "email" rfl
  | phone => exact inputBlock_congr id h (by decide) (by decide) "tel" rfl
  | dateTime => exact inputBlock_congr id h (by decide) (by decide) "datetime-local" rfl
  | textArea => exact textArea_congr id h
  | dropdown => exact dropdown_congr id h
  | checkbox => exact checkbox_congr id h
  | radio => exact radio_congr id h
  | consent => exact consent_congr id h
  | textBlock => exact textBlock_congr h
  | divider => exact divider_congr h
  | submit => exact submit_congr h

end

end Fragment

/-! ## Fields -/

theorem Field.render_of_resolve {f : Field} {r : Resolved} (h : f.resolve = .ok r) :
    f.render = .ok (r.element f.id).render := by
  rw [render, h]

/-- For every field of a known kind: its effective properties are its own entries, unchanged, and behind
them the missing defaults in the order of the definition; a field that carries them has no others; and
its markup is that of every field with its id and kind whose declared properties have the same effective
values. -/
theorem render_of_declared {f : Field} {k : Kind} (hk : f.typeKey = k.key) :
    ∃ r m, f.resolve = .ok r ∧ f.render = .ok m ∧
      r.props.entries = f.props.entries ++
        k.definition.defaults.entries.filter (fun e => !f.props.contains e.1) ∧
      Field.resolve { f with props := r.props } = .ok r ∧
      ∀ (g : Field) (s : Resolved), g.id = f.id → g.typeKey = f.typeKey → g.resolve = .ok s →
        (∀ name ∈ k.declared, s.get? name = r.get? name) → g.render = .ok m := by
  have hr := Field.resolve_of_key hk
  refine ⟨_, _, hr, Field.render_of_resolve hr, Bag.entries_fill _ _,
    Field.resolve_resolved hk hr, ?_⟩
  intro g s hid hkey hs hsame
  have hkind : s.kind = k := by
    rw [Field.resolve_of_key (hkey.trans hk)] at hs
    cases hs
    rfl
  rw [Field.render_of_resolve hs, hid, Fragment.element_congr f.id (.of_get? hkind rfl hsame)]

/-- A radio field that stores one declared property behind one that is not. -/
def sparseRadio : Field :=
  ⟨⟨"0"⟩, "radio", .ofList [("note", .text "n"), ("defaultValue", .text "1")]⟩

/-- The same field with some defaults stored, in an order of their own. -/
def storedRadio : Field := ⟨⟨"0"⟩, "radio", .ofList [
  ("options", .choices [⟨"1", "Yes"⟩, ⟨"0", "No"⟩]), ("defaultValue", .text "1"),
  ("label", .text "Choose one"), ("required", .flag false)]⟩

theorem render_of_declared_stored : sparseRadio.typeKey = Kind.radio.key ∧ ∃ r m,
    sparseRadio.resolve = .ok r ∧ r.props.names =
      ["note", "defaultValue", "label", "logicalName", "required", "prefill", "options"] ∧
      Field.resolve { sparseRadio with props := r.props } = .ok r ∧
      sparseRadio.render = .ok m ∧ storedRadio.render = .ok m := by
  have hkey : sparseRadio.typeKey = Kind.radio.key := rfl
  obtain ⟨r, m, hr, hm, -, hagain, hall⟩ := render_of_declared hkey
  have hfill : r = ⟨.radio, sparseRadio.props.fill Kind.radio.definition.defaults⟩ :=
    Except.ok.inj (hr.symm.trans (Field.resolve_of_key hkey))
  refine ⟨hkey, r, m, hr, ?_, hagain, hm,
    hall storedRadio _ rfl rfl (Field.resolve_of_key (k := .radio) rfl) ?_⟩
  · rw [hfill]
    decide
  · rw [hfill]
    decide

end MarketingForm
