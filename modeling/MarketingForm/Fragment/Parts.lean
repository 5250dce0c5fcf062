import MarketingForm.Form.Resolve
import MarketingForm.Markup.Layout

/-!
# Parts of a fragment

What the fragments of several kinds share: the wrapper with its block type, the required and
prefill marks, the control's id and its label.

- The control of a field has the id `<logical name>-<field id>`.
- A required field carries `data-required` on its wrapper, and `required aria-required="true"` on
  each of its controls.
- A prefilled field carries `data-prefill="prefill"` on its wrapper.
-/

namespace MarketingForm.Fragment

/-- The palette entry behind effective properties. -/
def definition (r : Resolved) : Definition := r.kind.definition

/-- The id of a field's control. -/
def controlId (r : Resolved) (id : FieldId) : String := r.text "logicalName" ++ "-" ++ id.text

/-- The wrapper of a field that is bound to a logical name, before its marks. -/
def boundWrapper (r : Resolved) : Element :=
  Element.new "div"
    |>.cls (definition r).cssClass
    |>.attr "data-editorblocktype" (definition r).blockType
    |>.attr "data-targetproperty" (r.text "logicalName")

/-- Marks a wrapper as required and as prefilled. -/
def mark (wrapper : Element) (r : Resolved) : Element :=
  wrapper
    |>.attrIf (r.isOn "required") "data-required" "required"
    |>.attrIf (r.isOn "prefill") "data-prefill" "prefill"

/-- Marks a control as required. -/
def markControl (control : Element) (r : Resolved) : Element :=
  control
    |>.flagIf (r.isOn "required") "required"
    |>.attrIf (r.isOn "required") "aria-required" "true"

/-- The label of the control with an id; a block label stands above its control. -/
def label (r : Resolved) (forId : String) (block : Bool) : Element :=
  Element.new "label"
    |>.attr "title" (r.text "label")
    |>.attrIf block "class" "block-label"
    |>.attr "for" forId
    |>.text (r.text "label")

end MarketingForm.Fragment
