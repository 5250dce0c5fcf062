/-!
# Lengths in bytes

The length of a text in the encoding UTF-8.
-/

namespace MarketingForm.Text

/-- The number of bytes of a text. -/
def utf8Length : List Char → Nat
  | [] => 0
  | c :: r => c.utf8Size + utf8Length r

end MarketingForm.Text
