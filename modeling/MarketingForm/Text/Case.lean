/-!
# ASCII case

Keywords that users type (categories, audiences, switch values) are read in any ASCII case.
-/

namespace MarketingForm.Text

/-- The text with its ASCII letters in lower case. -/
def asciiLower (s : String) : String := String.ofList (s.toList.map Char.toLower)

/-- Whether a text is the lower-case `word` up to ASCII case. -/
def spells (word s : String) : Bool := asciiLower s == word

@[simp] theorem toList_asciiLower (s : String) :
    (asciiLower s).toList = s.toList.map Char.toLower := by simp [asciiLower]

end MarketingForm.Text
