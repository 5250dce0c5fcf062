import MarketingForm.Text.Blank
import MarketingForm.Text.LowerCase

/-!
# Artifact names

The file name of a document is its title in lower case, with a hyphen for every run of blanks and
for every path separator, so that the file always lies directly in the output directory. The title
is trimmed first.
-/

namespace MarketingForm

/-- A character of the title as it stands in the file name. -/
def nameChar (c : Char) : List Char := if c = '/' ∨ c = '\\' then ['-'] else Text.lowerChar c

/-- The name of a trimmed title; `afterBlank` tells that a run of blanks has begun. -/
def slug (afterBlank : Bool) : List Char → List Char
  | [] => []
  | c :: r =>
    if Text.isBlank c then (if afterBlank then slug true r else '-' :: slug true r)
    else nameChar c ++ slug false r

/-- The file name of the document with a title. -/
def artifactName (title : String) : String :=
  String.ofList (slug false (Text.trim title.toList) ++ ".html".toList)

end MarketingForm
