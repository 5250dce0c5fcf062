import MarketingForm.Fragment.Parts

/-!
# Fragments of layout blocks

A text block shows its content in an element that the user names; a name that no element could have
gives a paragraph. A divider is a one-cell table with a styled upper border.
-/

namespace MarketingForm.Fragment

/-- The element around the content of a text block. -/
def textBody (tag : String) : Element := (Element.named? tag).getD (Element.new "p")

def textBlock (r : Resolved) : Element :=
  Element.new "div"
    |>.cls (definition r).cssClass
    |>.attr "data-editorblocktype" (definition r).blockType
    |>.attr "style" ("margin: 10px; text-align: " ++ r.text "align" ++ ";")
    |>.child ((textBody (r.text "tag")).text (r.text "content"))

/-- The style that draws the line of a divider. -/
def dividerStyle (r : Resolved) : String :=
  "margin: 0px; padding: 0px; vertical-align: top; border-top-width: " ++ r.text "thickness" ++
    "px; border-top-style: solid; border-top-color: " ++ r.text "color" ++ ";"

def divider (r : Resolved) : Element :=
  let line := Element.new "p"
    |>.attr "style" "margin: 0px; padding: 0px; line-height: 0px; width: 100%;"
    |>.child (Element.new "span" |>.literal "&nbsp;")
  let cell := Element.new "th"
    |>.attr "style" (dividerStyle r)
    |>.child line
  let row := Element.new "tr"
    |>.attr "style" "padding: 0px;"
    |>.child cell
  let table := Element.new "table"
    |>.attr "style" "padding: 0px; margin: 0px; width: 100%; border-collapse: collapse;"
    |>.attr "role" "presentation"
    |>.attr "cellpadding" "0"
    |>.attr "cellspacing" "0"
    |>.child (Element.new "tbody" |>.child row)
  let frame := Element.new "div"
    |>.cls (definition r).cssClass
    |>.attr "align" "center"
    |>.child table
  Element.new "div"
    |>.attr "data-editorblocktype" (definition r).blockType
    |>.attr "style" "margin: 20px 10px;"
    |>.child frame

def submit (r : Resolved) : Element :=
  let button := Element.new "button"
    |>.cls "submitButton"
    |>.attr "type" "submit"
    |>.child (Element.new "span" |>.text (r.text "buttonText"))
  Element.new "div"
    |>.attr "data-editorblocktype" (definition r).blockType
    |>.cls (definition r).cssClass
    |>.child button

end MarketingForm.Fragment
