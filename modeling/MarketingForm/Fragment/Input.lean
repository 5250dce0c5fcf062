import MarketingForm.Fragment.Parts

/-!
# Fragments of input fields

A label and one control: a single-line input for text, email, phone and date, a text area for
longer texts.
-/

namespace MarketingForm.Fragment

/-- The pattern that phone numbers must match. -/
def phonePattern : String :=
  "(\\+[\\(]?[0-9]\x7b1,4\x7d|[\\(]?00[0-9]\x7b0,2\x7d|[\\(]?011[0-9]?|[\\(]?010[0-9]?)[\\)]?" ++
    "([ \\-\\(\\)]*[0-9][ \\-\\(\\)]*)\x7b3,16\x7d"

/-- A label and a single-line input of a type, to which `extra` adds attributes. -/
def inputBlock (r : Resolved) (id : FieldId) (type : String) (extra : Element → Element) :
    Element :=
  let input := Element.new "input"
    |>.attr "id" (controlId r id)
    |>.attr "type" type
    |>.attr "name" (r.text "logicalName")
    |>.attr "placeholder" (r.text "placeholder")
    |>.attr "title" (r.text "label")
  mark (boundWrapper r) r
    |>.child (label r (controlId r id) false)
    |>.child (markControl (extra input) r)

def textInput (r : Resolved) (id : FieldId) : Element :=
  inputBlock r id "text" fun input => input.attr "maxlength" (r.text "maxLength")

def emailInput (r : Resolved) (id : FieldId) : Element :=
  inputBlock r id "email" fun input => input

def phoneInput (r : Resolved) (id : FieldId) : Element :=
  inputBlock r id "tel" fun input => input.attr "pattern" phonePattern

def dateTimeInput (r : Resolved) (id : FieldId) : Element :=
  inputBlock r id "datetime-local" fun input => input

def textArea (r : Resolved) (id : FieldId) : Element :=
  let area := Element.new "textarea"
    |>.attr "id" (controlId r id)
    |>.attr "name" (r.text "logicalName")
    |>.attr "placeholder" (r.text "placeholder")
    |>.attr "title" (r.text "label")
    |>.attr "cols" "20"
    |>.attr "rows" (r.text "rows")
    |>.attr "maxlength" (r.text "maxLength")
  mark (boundWrapper r) r
    |>.child (label r (controlId r id) false)
    |>.child (markControl area r)

end MarketingForm.Fragment
