import MarketingForm.Form.Audience
import MarketingForm.Form.FieldId
import MarketingForm.Form.Palette

/-!
# Forms

A form is a title, an audience and its fields in page order. A field owns its properties: it starts
with a copy of its kind's defaults and never refers back to them.
-/

namespace MarketingForm

/-- A placed field: its id, the key of its kind and its own properties. -/
structure Field where
  id : FieldId
  typeKey : String
  props : Properties
deriving DecidableEq

/-- A form document. -/
structure Form where
  title : String
  audience : Audience
  fields : List Field
deriving DecidableEq

namespace Field

/-- A new field of a kind, with the kind's defaults. -/
def new (d : Definition) (id : FieldId) : Field := ⟨id, d.key, d.defaults⟩

end Field

namespace Form

/-- The empty form with a title. -/
def new (title : String) : Form := ⟨title, default, []⟩

/-- The first field with an id. -/
def field? (form : Form) (id : FieldId) : Option Field := form.fields.find? (·.id == id)

end Form

end MarketingForm
