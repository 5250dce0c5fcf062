import MarketingForm.Form.Edit

/-!
# Effective properties

A field's own entries win; every property that its kind declares and the field lacks is filled in
from the defaults.
-/

namespace MarketingForm

/-- The effective properties of a field together with its kind. -/
structure Resolved where
  kind : Kind
  props : Properties

namespace Resolved

def get? (r : Resolved) (name : String) : Option Value := r.props.get? name

/-- The text of a property; an absent one is empty. -/
def text (r : Resolved) (name : String) : String :=
  match r.get? name with
  | some v => v.asText
  | none => ""

/-- Whether a switch property is on; an absent one is off. -/
def isOn (r : Resolved) (name : String) : Bool :=
  match r.get? name with
  | some v => v.isOn
  | none => false

/-- The choices of a property; an absent one has none. -/
def choices (r : Resolved) (name : String) : List Choice :=
  match r.get? name with
  | some v => v.choiceList
  | none => []

end Resolved

/-- Completes a field with its kind's defaults. -/
def Field.resolve (f : Field) : Except EditError Resolved :=
  match Definition.lookup? f.typeKey with
  | some d => .ok ⟨d.kind, f.props.fill d.defaults⟩
  | none => .error (.unknownType f.typeKey)

end MarketingForm
