import MarketingForm.Fragment.Parts
import MarketingForm.Json.Manifest

/-!
# Fragments of selection fields

A dropdown shows its choices as the options of a select, after a placeholder that cannot be chosen.
Check boxes and radio buttons also carry the whole choice list as JSON on their wrapper. A check box
submits the value of its first choice; of the radio buttons those are checked whose value is the
default.
-/

namespace MarketingForm.Fragment

/-- The entry that a dropdown shows before a choice is made. -/
def selectPlaceholder : Element :=
  Element.new "option"
    |>.attr "value" ""
    |>.flag "disabled"
    |>.flag "selected"
    |>.flag "hidden"
    |>.text "Select"

def selectOption (c : Choice) : Element :=
  Element.new "option"
    |>.attr "value" c.value
    |>.text c.label

def dropdown (r : Resolved) (id : FieldId) : Element :=
  let select := Element.new "select"
    |>.attr "id" (controlId r id)
    |>.attr "name" (r.text "logicalName")
    |>.attr "title" (r.text "label")
  let select := markControl select r
    |>.child selectPlaceholder
    |>.childList ((r.choices "options").map selectOption)
  mark (boundWrapper r) r
    |>.child (label r (controlId r id) true)
    |>.child select

/-- The wrapper of a field that carries its choice list. -/
def choiceWrapper (r : Resolved) : Element :=
  mark ((boundWrapper r).attr "data-options" (Choice.manifest (r.choices "options"))) r

/-- The value that a ticked box submits. -/
def tickedValue : List Choice → String
  | [] => ""
  | c :: _ => c.value

def checkbox (r : Resolved) (id : FieldId) : Element :=
  let input := Element.new "input"
    |>.attr "id" (controlId r id)
    |>.attr "name" (r.text "logicalName")
    |>.attr "title" (r.text "label")
    |>.attr "type" "checkbox"
    |>.attr "value" (tickedValue (r.choices "options"))
  let box := Element.new "div"
    |>.child (markControl input r)
    |>.child (label r (controlId r id) true)
  (choiceWrapper r).child (Element.new "div" |>.cls "twooption_checkbox" |>.child box)

/-- The button and label of the choice at a position. -/
def radioButton (r : Resolved) (id : FieldId) (index : Nat) (c : Choice) : Element :=
  let buttonId := controlId r id ++ "-" ++ Text.decimal index
  let input := Element.new "input"
    |>.attr "id" buttonId
    |>.attr "name" (r.text "logicalName")
    |>.attr "title" c.label
    |>.attr "type" "radio"
    |>.attr "value" c.value
    |>.flagIf (c.value == r.text "defaultValue") "checked"
  let caption := Element.new "label"
    |>.attr "for" buttonId
    |>.attr "title" c.label
    |>.text c.label
  Element.new "div"
    |>.child (markControl input r)
    |>.child caption

def radio (r : Resolved) (id : FieldId) : Element :=
  let buttons := Element.new "div"
    |>.attr "id" (controlId r id)
    |>.cls "radiobuttons"
    |>.childList ((r.choices "options").mapIdx (radioButton r id))
  choiceWrapper r
    |>.child (label r (controlId r id) true)
    |>.child buttons

end MarketingForm.Fragment
