import MarketingForm.Form.Value
import MarketingForm.Json.Text

/-!
# Choice lists as JSON

A choice list is written without blanks as an array of objects with the members `value` and `label`.
-/

namespace MarketingForm

namespace Json

/-- Items with a comma between any two. -/
def commaSeparated : List (List Char) → List Char
  | [] => []
  | [x] => x
  | x :: y :: r => x ++ ',' :: commaSeparated (y :: r)

end Json

namespace Choice

/-- The choice as an object. -/
def json (c : Choice) : List Char :=
  '\x7b' :: Json.encodeString "value".toList ++ ':' :: Json.encodeString c.value.toList ++
    ',' :: Json.encodeString "label".toList ++ ':' :: Json.encodeString c.label.toList ++ ['\x7d']

/-- The choices as an array. -/
def manifest (cs : List Choice) : String :=
  String.ofList ('[' :: Json.commaSeparated (cs.map json) ++ [']'])

end Choice

end MarketingForm
