import MarketingForm.Form.Bag
import MarketingForm.Text.Case
import MarketingForm.Text.Numeral

/-!
# Property values

A property of a field holds a flag, a 64-bit integer, a text or a list of choices. `Value.asText`,
`Value.isOn` and `Value.choiceList` are the readings that markup takes of any value, whatever its
kind.
-/

namespace MarketingForm

/-- One entry of a choice list: what is submitted and what is shown. -/
structure Choice where
  value : String
  label : String
deriving DecidableEq, Inhabited

/-- The value of a property. -/
inductive Value where
  | flag (b : Bool)
  | integer (n : Int64)
  | text (s : String)
  | choices (cs : List Choice)
deriving DecidableEq, Inhabited

/-- The four kinds of values. -/
inductive ValueKind where
  | flag
  | integer
  | text
  | choices
deriving DecidableEq

namespace Value

def kind : Value → ValueKind
  | flag _ => .flag
  | integer _ => .integer
  | text _ => .text
  | choices _ => .choices

/-- The text that markup shows; a choice list has none. -/
def asText : Value → String
  | flag b => if b then "true" else "false"
  | integer n => Text.decimal n.toInt
  | text s => s
  | choices _ => ""

/-- Whether a switch property with this value is on. -/
def isOn : Value → Bool
  | flag b => b
  | integer n => n != 0
  | text s => Text.spells "true" s
  | choices _ => false

/-- The choices of a list; every other value has none. -/
def choiceList : Value → List Choice
  | choices cs => cs
  | _ => []

/-- The value as messages and tables show it. -/
def display : Value → String
  | choices cs => "[" ++ ", ".intercalate (cs.map fun c => c.value ++ "=" ++ c.label) ++ "]"
  | v => v.asText

end Value

/-- The name of a kind in messages. -/
def ValueKind.name : ValueKind → String
  | .flag => "boolean"
  | .integer => "integer"
  | .text => "text"
  | .choices => "options"

/-- The properties of one field. -/
abbrev Properties := Bag Value

end MarketingForm
