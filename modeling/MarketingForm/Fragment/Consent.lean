import MarketingForm.Fragment.Parts

/-!
# The fragment of a consent field

One check box, whose value joins the purpose, the channels and the opt-in rule. The wrapper repeats
them one by one, together with the compliance settings.
-/

namespace MarketingForm.Fragment

/-- The name by which consent boxes are recognised. -/
def consentName : String := "msdynmkt_purposeid;channels;optinwhenchecked"

/-- Purpose, channels and opt-in rule in one value. -/
def consentValue (r : Resolved) : String :=
  r.text "purposeId" ++ ";" ++ r.text "channels" ++ ";" ++ r.text "optInWhenChecked"

def consentId (id : FieldId) : String := "consent-" ++ id.text

def consent (r : Resolved) (id : FieldId) : Element :=
  let input := Element.new "input"
    |>.attr "type" "checkbox"
    |>.attr "id" (consentId id)
    |>.attr "name" consentName
    |>.attr "value" (consentValue r)
  let caption := Element.new "label"
    |>.attr "id" (consentId id ++ "-label")
    |>.attr "for" (consentId id)
    |>.child (Element.new "p" |>.text (r.text "label"))
  let box := Element.new "div"
    |>.child (markControl input r)
    |>.child caption
  Element.new "div"
    |>.cls (definition r).cssClass
    |>.attr "data-editorblocktype" (definition r).blockType
    |>.attrIf (r.isOn "required") "data-required" "true"
    |>.attr "style" "padding: 4px 30px;"
    |>.attr "data-compliancesettingsid" (r.text "complianceSettingsId")
    |>.attr "data-compliancesettingsname" (r.text "complianceSettingsName")
    |>.attr "data-purposeid" (r.text "purposeId")
    |>.attr "data-purposename" (r.text "purposeName")
    |>.attr "data-channels" (r.text "channels")
    |>.attr "data-optinwhenchecked" (r.text "optInWhenChecked")
    |>.attrIf (r.isOn "prefill") "data-prefill" "prefill"
    |>.child box

end MarketingForm.Fragment
