import MarketingForm.Form.Basic
import MarketingForm.Yaml.Block

/-!
# Writing forms as YAML

All members of a form and of a field are written, in a fixed order; properties keep their own order.
-/

namespace MarketingForm

open Yaml

/-- A choice as a mapping. -/
def Choice.toBlock (c : Choice) : Block :=
  .mapping [("value".toList, .text c.value.toList), ("label".toList, .text c.label.toList)]

def Value.toBlock : Value → Block
  | flag b => .word (if b then "true" else "false").toList
  | integer n => .word (Text.decimal n.toInt).toList
  | text s => .text s.toList
  | choices cs => .sequence (cs.map Choice.toBlock)

def Properties.toBlock (ps : Properties) : Block :=
  .mapping (ps.entries.map fun e => (e.1.toList, e.2.toBlock))

def Field.toBlock (f : Field) : Block :=
  .mapping [
    ("id".toList, .text f.id.text.toList),
    ("type".toList, .text f.typeKey.toList),
    ("props".toList, Properties.toBlock f.props)]

namespace Form

/-- The members of a form. -/
def members (form : Form) : List (List Char × Block) := [
  ("title".toList, .text form.title.toList),
  ("audience".toList, .text form.audience.name.toList),
  ("fields".toList, .sequence (form.fields.map Field.toBlock))]

/-- The text of a form file. -/
def toYaml (form : Form) : String := Block.writeDocument form.members

end Form

end MarketingForm
