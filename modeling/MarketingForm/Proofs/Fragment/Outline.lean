import MarketingForm.Fragment.Basic
import MarketingForm.Proofs.Html.Outline

/-!
# Outlines of fragments

The shape of a fragment is a function of the field's kind and of what `Resolved.Alike` compares:
two switches, the number of choices, which radio buttons are checked and the element of a text
block. Ids, labels and all other values enter as attribute values and texts alone.
-/

namespace MarketingForm

open Html

namespace Resolved

/-- Which choices have the default value. -/
def checked (r : Resolved) : List Bool :=
  (r.choices "options").map fun c => c.value == r.text "defaultValue"

/-- Two bags of effective properties agree on what may change the tags of a fragment. -/
structure Alike (r s : Resolved) : Prop where
  required : r.isOn "required" = s.isOn "required"
  prefill : r.isOn "prefill" = s.isOn "prefill"
  choices : (r.choices "options").length = (s.choices "options").length
  checked : r.kind = .radio → s.kind = .radio → r.checked = s.checked
  body : r.kind = .textBlock → s.kind = .textBlock →
    (Fragment.textBody (r.text "tag")).tag = (Fragment.textBody (s.text "tag")).tag

end Resolved

namespace Fragment

open Element

@[simp] theorem shape_boundWrapper (r : Resolved) :
    (boundWrapper r).shape = ((Shape.mk "div" [] [] true).addNamesIf
      (!(definition r).cssClass.isEmpty) ["class"]).addNames
        ["data-editorblocktype", "data-targetproperty"] := by
  simp only [boundWrapper, shape_attr, shape_cls, shape_new, Shape.addNames_addNames]
  rfl

@[simp] theorem shape_mark (w : Element) (r : Resolved) :
    (mark w r).shape = (w.shape.addNamesIf (r.isOn "required") ["data-required"]).addNamesIf
      (r.isOn "prefill") ["data-prefill"] := by
  rw [mark, shape_attrIf, shape_attrIf]

@[simp] theorem shape_markControl (e : Element) (r : Resolved) :
    (markControl e r).shape =
      e.shape.addNamesIf (r.isOn "required") ["required", "aria-required"] := by
  rw [markControl, shape_attrIf, shape_flagIf]
  cases r.isOn "required"
  · rfl
  · exact e.shape.addNames_addNames ["required"] ["aria-required"]

@[simp] theorem shape_label (r : Resolved) (forId : String) (block : Bool) :
    (label r forId block).shape =
      (Shape.mk "label" ["title"] [] true |>.addNamesIf block ["class"] |>.addNames ["for"]) := by
  rw [label, shape_text, shape_attr, shape_attrIf, shape_attr]
  rfl

/-! ## Choices -/

@[simp] theorem shape_selectPlaceholder :
    selectPlaceholder.shape =
      ⟨"option", ["value", "disabled", "selected", "hidden"], [], true⟩ := rfl

theorem shape_selectOption (c : Choice) :
    (selectOption c).shape = ⟨"option", ["value"], [], true⟩ := by
  rw [selectOption, shape_text, shape_attr]
  rfl

/-- The outline of some choices of a list. -/
def optionMarks (n : Nat) : List Mark :=
  (List.replicate n (Shape.outline ⟨"option", ["value"], [], true⟩)).flatten

@[simp] theorem shape_selectOptions (e : Element) (cs : List Choice) :
    (e.childList (cs.map selectOption)).shape = e.shape.addInner (optionMarks cs.length) true := by
  have hinner : (cs.map selectOption).flatMap (fun c => c.shape.outline) =
      optionMarks cs.length := by
    rw [List.flatMap_map, List.flatMap_def, optionMarks]
    simp only [shape_selectOption, List.map_const']
  have hsound : (cs.map selectOption).all (fun c => c.shape.readable) = true := by
    rw [List.all_map, List.all_eq_true]
    intro c _
    rw [Function.comp_apply, shape_selectOption]
    decide
  rw [shape_childList, hinner, hsound]

/-- The shape of the button and label of a choice. -/
def radioShape (required checked : Bool) : Shape :=
  let input := Shape.mk "input" ["id", "name", "title", "type", "value"] [] true
    |>.addNamesIf checked ["checked"]
    |>.addNamesIf required ["required", "aria-required"]
  let caption := Shape.mk "label" ["for", "title"] [] true
  Shape.mk "div" [] (input.outline ++ caption.outline) true

theorem shape_radioButton (r : Resolved) (id : FieldId) (i : Nat) (c : Choice) :
    (radioButton r id i c).shape =
      radioShape (r.isOn "required") (c.value == r.text "defaultValue") := by
  simp only [radioButton, shape_child, shape_markControl, shape_flagIf, shape_text, shape_attr,
    shape_new]
  generalize r.isOn "required" = required
  generalize (c.value == r.text "defaultValue") = checked
  revert required checked
  decide

@[simp] theorem shape_radioButtons (e : Element) (r : Resolved) (id : FieldId) :
    (e.childList ((r.choices "options").mapIdx (radioButton r id))).shape = e.shape.addInner
      (r.checked.flatMap fun b => (radioShape (r.isOn "required") b).outline) true := by
  have hinner : ((r.choices "options").mapIdx (radioButton r id)).flatMap
      (fun c => c.shape.outline) =
        r.checked.flatMap fun b => (radioShape (r.isOn "required") b).outline := by
    rw [List.flatMap_def, List.flatMap_def]
    congr 1
    apply List.ext_getElem
    · simp [Resolved.checked]
    · intro i _ _
      simp [Resolved.checked, shape_radioButton]
  have hsound :
      ((r.choices "options").mapIdx (radioButton r id)).all (fun c => c.shape.readable) = true := by
    have hshape : ∀ required checked, (radioShape required checked).readable = true := by decide
    rw [List.all_eq_true]
    intro c hc
    obtain ⟨i, hi, rfl⟩ := List.mem_mapIdx.1 hc
    rw [shape_radioButton, hshape]
  rw [shape_childList, hinner, hsound]

/-! ## The element of a text block -/

theorem textBody_eq_new (tag : String) :
    ∃ name, textBody tag = Element.new name ∧ isTagName name = true ∧ isVoidTag name = false := by
  unfold textBody Element.named?
  by_cases h : (isTagName (Text.asciiLower tag) && !isVoidTag (Text.asciiLower tag)) = true
  · have hname := Bool.and_eq_true_iff.1 h
    exact ⟨Text.asciiLower tag, by simp only [h]; rfl, hname.1, by simpa using hname.2⟩
  · exact ⟨"p", by simp only [h]; rfl, by decide, by decide⟩

@[simp] theorem shape_textBody (tag : String) :
    (textBody tag).shape = ⟨(textBody tag).tag, [], [], true⟩ := by
  obtain ⟨name, h, -⟩ := textBody_eq_new tag
  rw [h]
  rfl

@[simp] theorem readable_textBody (tag : String) :
    (Shape.mk (textBody tag).tag [] [] true).readable = true := by
  obtain ⟨name, h, hname, -⟩ := textBody_eq_new tag
  rw [h]
  simp [Shape.readable, Element.new, hname]

/-! ## Two fields of one kind -/

section

variable {r s : Resolved} (hk : r.kind = s.kind) (h : r.Alike s) (id id' : FieldId)
include hk h

theorem shape_inputBlock_congr (type : String) {extra extra' : Element → Element} {ns : List String}
    (hr : ∀ e, (extra e).shape = e.shape.addNames ns)
    (hs : ∀ e, (extra' e).shape = e.shape.addNames ns) :
    (inputBlock r id type extra).shape = (inputBlock s id' type extra').shape := by
  simp [inputBlock, definition, hr, hs, hk, h.required, h.prefill]

theorem shape_textArea_congr : (textArea r id).shape = (textArea s id').shape := by
  simp [textArea, definition, hk, h.required, h.prefill]

theorem shape_dropdown_congr : (dropdown r id).shape = (dropdown s id').shape := by
  simp [dropdown, definition, hk, h.required, h.prefill, h.choices]

theorem shape_checkbox_congr : (checkbox r id).shape = (checkbox s id').shape := by
  simp [checkbox, choiceWrapper, definition, hk, h.required, h.prefill]

theorem shape_radio_congr (hradio : s.kind = .radio) :
    (radio r id).shape = (radio s id').shape := by
  have hchecked := h.checked (hk.trans hradio) hradio
  simp [radio, choiceWrapper, definition, hchecked, hk, h.required, h.prefill]

theorem shape_consent_congr : (consent r id).shape = (consent s id').shape := by
  simp [consent, definition, hk, h.required, h.prefill]

theorem shape_textBlock_congr (hblock : s.kind = .textBlock) :
    (textBlock r).shape = (textBlock s).shape := by
  have hbody := h.body (hk.trans hblock) hblock
  simp [textBlock, definition, hbody, hk]

omit h in
theorem shape_divider_congr : (divider r).shape = (divider s).shape := by
  have hspace : '<' ∉ "&nbsp;".toList := by decide
  simp [divider, shape_literal _ hspace, definition, hk]

omit h in
theorem shape_submit_congr : (submit r).shape = (submit s).shape := by
  simp [submit, definition, hk]

/-- Alike fields of one kind have fragments of one shape. -/
theorem shape_element_congr : (r.element id).shape = (s.element id').shape := by
  unfold Resolved.element
  rw [hk]
  cases hs : s.kind with
  | text =>
    exact shape_inputBlock_congr hk h id id' "text" (fun e => e.shape_attr _ _)
      (fun e => e.shape_attr _ _)
  | phone =>
    exact shape_inputBlock_congr hk h id id' "tel" (fun e => e.shape_attr _ _)
      (fun e => e.shape_attr _ _)
  | email =>
    exact shape_inputBlock_congr hk h id id' "email" (fun e => e.shape.addNames_nil.symm)
      (fun e => e.shape.addNames_nil.symm)
  | dateTime =>
    exact shape_inputBlock_congr hk h id id' "datetime-local" (fun e => e.shape.addNames_nil.symm)
      (fun e => e.shape.addNames_nil.symm)
  | textArea => exact shape_textArea_congr hk h id id'
  | dropdown => exact shape_dropdown_congr hk h id id'
  | checkbox => exact shape_checkbox_congr hk h id id'
  | radio => exact shape_radio_congr hk h id id' hs
  | consent => exact shape_consent_congr hk h id id'
  | textBlock => exact shape_textBlock_congr hk h hs
  | divider => exact shape_divider_congr hk
  | submit => exact shape_submit_congr hk

end

/-! ## Every fragment is readable -/

section

variable (r : Resolved) (id : FieldId)

theorem readable_inputBlock (type : String) {extra : Element → Element} {ns : List String}
    (hextra : ∀ e, (extra e).shape = e.shape.addNames ns) (hns : ns.all isAttributeName = true) :
    (inputBlock r id type extra).shape.readable = true := by
  simp (disch := decide) [inputBlock, hextra, Shape.readable_addNames _ hns]

theorem readable_textArea : (textArea r id).shape.readable = true := by
  simp (disch := decide) [textArea]

theorem readable_dropdown : (dropdown r id).shape.readable = true := by
  simp (disch := decide) [dropdown]

theorem readable_checkbox : (checkbox r id).shape.readable = true := by
  simp (disch := decide) [checkbox, choiceWrapper]

theorem readable_radio : (radio r id).shape.readable = true := by
  simp (disch := decide) [radio, choiceWrapper]

theorem readable_consent : (consent r id).shape.readable = true := by
  simp (disch := decide) [consent]

theorem readable_textBlock : (textBlock r).shape.readable = true := by
  simp (disch := decide) [textBlock]

theorem readable_divider : (divider r).shape.readable = true := by
  have hspace : '<' ∉ "&nbsp;".toList := by decide
  simp (disch := decide) [divider, shape_literal _ hspace]

theorem readable_submit : (submit r).shape.readable = true := by
  simp (disch := decide) [submit]

theorem readable_element : (r.element id).shape.readable = true := by
  unfold Resolved.element
  cases r.kind with
  | text => exact readable_inputBlock r id "text" (fun e => e.shape_attr _ _) (by decide)
  | phone => exact readable_inputBlock r id "tel" (fun e => e.shape_attr _ _) (by decide)
  | email => exact readable_inputBlock r id "email" (fun e => e.shape.addNames_nil.symm) rfl
  | dateTime =>
    exact readable_inputBlock r id "datetime-local" (fun e => e.shape.addNames_nil.symm) rfl
  | textArea => exact readable_textArea r id
  | dropdown => exact readable_dropdown r id
  | checkbox => exact readable_checkbox r id
  | radio => exact readable_radio r id
  | consent => exact readable_consent r id
  | textBlock => exact readable_textBlock r
  | divider => exact readable_divider r
  | submit => exact readable_submit r

end

end Fragment

end MarketingForm
