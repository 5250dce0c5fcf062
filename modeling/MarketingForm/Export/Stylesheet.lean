import MarketingForm.Form.Bag

/-!
# Design tokens

Design tokens are custom properties of the style sheet: opaque values under opaque names. They
compile to one declaration per line, in order.
-/

namespace MarketingForm

/-- Names of custom properties with their values. -/
abbrev Tokens := Bag String

/-- The declaration of one token. -/
def declaration (name value : String) : String := "  " ++ name ++ ": " ++ value ++ ";\n"

/-- The declarations of all tokens. -/
def Tokens.css (ts : Tokens) : String := String.join (ts.entries.map fun e => declaration e.1 e.2)

end MarketingForm
