import MarketingForm.Fragment.Consent
import MarketingForm.Fragment.Input
import MarketingForm.Fragment.Layout
import MarketingForm.Fragment.Selection

/-!
# Fragments

The fragment of a field is the markup of its effective properties. Only a field of an unknown kind
has none.
-/

namespace MarketingForm

/-- The element of effective properties. -/
def Resolved.element (r : Resolved) (id : FieldId) : Element :=
  match r.kind with
  | .text => Fragment.textInput r id
  | .email => Fragment.emailInput r id
  | .phone => Fragment.phoneInput r id
  | .textArea => Fragment.textArea r id
  | .dateTime => Fragment.dateTimeInput r id
  | .dropdown => Fragment.dropdown r id
  | .checkbox => Fragment.checkbox r id
  | .radio => Fragment.radio r id
  | .consent => Fragment.consent r id
  | .textBlock => Fragment.textBlock r
  | .divider => Fragment.divider r
  | .submit => Fragment.submit r

/-- A field whose kind is unknown. -/
structure UnknownField where
  id : FieldId
  typeKey : String
deriving DecidableEq

def UnknownField.message (u : UnknownField) : String :=
  "field '" ++ u.id.text ++ "' has unknown type '" ++ u.typeKey ++ "'"

/-- The fragment of a field. -/
def Field.render (f : Field) : Except UnknownField Markup :=
  match f.resolve with
  | .ok r => .ok (r.element f.id).render
  | .error _ => .error ⟨f.id, f.typeKey⟩

end MarketingForm
