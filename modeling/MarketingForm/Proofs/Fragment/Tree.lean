import MarketingForm.Proofs.Export.Fragments
import MarketingForm.Proofs.Fragment.Outline
import MarketingForm.Proofs.Html.Element

/-!
# Trees of fragments

Every fragment is made of whole elements, so it reads as its tree, alone and among the fragments of
other fields (`readAll?_fields`).
-/

namespace MarketingForm

open Html

namespace Fragment

open Element

section

variable (r : Resolved) (id : FieldId)

@[simp] theorem frame_boundWrapper :
    (boundWrapper r).frame = ⟨"div", true, true, true, true, true⟩ := by
  simp (disch := decide) [boundWrapper]

@[simp] theorem frame_mark (w : Element) : (mark w r).frame = w.frame := by
  simp (disch := decide) [mark]

@[simp] theorem frame_markControl (e : Element) : (markControl e r).frame = e.frame := by
  simp (disch := decide) [markControl]

@[simp] theorem frame_label (forId : String) (block : Bool) :
    (label r forId block).frame = ⟨"label", true, false, true, false, true⟩ := by
  simp (disch := decide) [label, Frame.addInline]

@[simp] theorem frame_ok_label (forId : String) (block : Bool) :
    (label r forId block).frame.ok = true := by
  rw [frame_label]
  decide

@[simp] theorem frame_choiceWrapper :
    (choiceWrapper r).frame = ⟨"div", true, true, true, true, true⟩ := by
  simp (disch := decide) [choiceWrapper]

theorem frame_ok_inputBlock (type : String) {extra : Element → Element}
    (hextra : ∀ e, (extra e).frame = e.frame) : (inputBlock r id type extra).frame.ok = true := by
  simp (disch := decide) only [inputBlock, hextra, frame_child, frame_mark, frame_boundWrapper,
    frame_markControl, frame_ok_label, frame_attr, frame_new]
  decide

theorem frame_ok_textArea : (textArea r id).frame.ok = true := by
  simp (disch := decide) only [textArea, frame_child, frame_mark, frame_boundWrapper,
    frame_markControl, frame_ok_label, frame_attr, frame_new]
  decide

theorem frame_ok_selectOption (c : Choice) : (selectOption c).frame.ok = true := by
  simp (disch := decide) only [selectOption, frame_text, frame_attr, frame_new]
  decide

theorem frame_ok_dropdown : (dropdown r id).frame.ok = true := by
  have hplaceholder : selectPlaceholder.frame.ok = true := by decide
  have hoptions : ∀ e ∈ (r.choices "options").map selectOption, e.frame.ok = true := by
    intro e he
    obtain ⟨c, -, rfl⟩ := List.mem_map.1 he
    exact frame_ok_selectOption c
  simp (disch := decide) only [dropdown, frame_child, frame_mark, frame_boundWrapper,
    frame_markControl, frame_ok_label, frame_childList _ hoptions, hplaceholder, frame_attr, frame_new]
  generalize ((r.choices "options").map selectOption).isEmpty = empty
  revert empty
  decide

theorem frame_ok_checkbox : (checkbox r id).frame.ok = true := by
  simp (disch := decide) only [checkbox, frame_child, frame_choiceWrapper, frame_markControl,
    frame_ok_label, frame_attr, frame_cls, frame_new]
  decide

theorem frame_ok_radioButton (i : Nat) (c : Choice) : (radioButton r id i c).frame.ok = true := by
  simp (disch := decide) only [radioButton, frame_child, frame_markControl, frame_flagIf, frame_text,
    frame_attr, frame_new]
  decide

theorem frame_ok_radio : (radio r id).frame.ok = true := by
  have hbuttons : ∀ e ∈ (r.choices "options").mapIdx (radioButton r id), e.frame.ok = true := by
    intro e he
    obtain ⟨i, hi, rfl⟩ := List.mem_mapIdx.1 he
    exact frame_ok_radioButton r id i _
  simp (disch := decide) only [radio, frame_child, frame_choiceWrapper, frame_ok_label,
    frame_childList _ hbuttons, frame_attr, frame_cls, frame_new]
  generalize ((r.choices "options").mapIdx (radioButton r id)).isEmpty = empty
  revert empty
  decide

theorem frame_ok_consent : (consent r id).frame.ok = true := by
  simp (disch := decide) only [consent, frame_child, frame_markControl, frame_text, frame_attr,
    frame_attrIf, frame_cls, frame_new]
  decide

theorem frame_ok_textBlock : (textBlock r).frame.ok = true := by
  obtain ⟨name, hbody, hname, hvoid⟩ := textBody_eq_new (r.text "tag")
  simp (disch := decide) only [textBlock, hbody, frame_child, frame_text, frame_attr, frame_cls,
    frame_new]
  simp [Frame.ok, Frame.addBlock, Frame.addInline, hname, hvoid]
  decide

theorem frame_ok_divider : (divider r).frame.ok = true := by
  simp (disch := decide) only [divider, frame_child, frame_literal, frame_attr, frame_cls, frame_new]
  decide

theorem frame_ok_submit : (submit r).frame.ok = true := by
  simp (disch := decide) only [submit, frame_child, frame_text, frame_attr, frame_cls, frame_new]
  decide

/-- Every fragment is made of whole elements. -/
theorem frame_ok_element : (r.element id).frame.ok = true := by
  unfold Resolved.element
  cases r.kind with
  | text => exact frame_ok_inputBlock r id "text" fun e => frame_attr e _ (by decide)
  | phone => exact frame_ok_inputBlock r id "tel" fun e => frame_attr e _ (by decide)
  | email => exact frame_ok_inputBlock r id "email" fun _ => rfl
  | dateTime => exact frame_ok_inputBlock r id "datetime-local" fun _ => rfl
  | textArea => exact frame_ok_textArea r id
  | dropdown => exact frame_ok_dropdown r id
  | checkbox => exact frame_ok_checkbox r id
  | radio => exact frame_ok_radio r id
  | consent => exact frame_ok_consent r id
  | textBlock => exact frame_ok_textBlock r
  | divider => exact frame_ok_divider r
  | submit => exact frame_ok_submit r

end

end Fragment

/-! ## Fields -/

namespace Field

/-- The trees of a field's fragment; a field of an unknown kind has none. -/
def trees (f : Field) : List Node :=
  match f.resolve with
  | .ok r => [(r.element f.id).tree]
  | .error _ => []

theorem adds_markup (f : Field) : Adds f.markup f.trees := by
  unfold markup render trees
  cases f.resolve with
  | error e => exact Adds.layout rfl
  | ok r => exact Element.adds_render (Fragment.frame_ok_element r f.id)

end Field

/-- The fragments of fields read as their trees. -/
theorem readAll?_fields (fields : List Field) :
    readAll? (fields.flatMap Field.markup) = some (fields.flatMap Field.trees) :=
  readAll?_of_adds (adds_flatMap fun f _ => f.adds_markup)

end MarketingForm
