import MarketingForm.Form.Kind
import MarketingForm.Form.Value

/-!
# The palette

One definition per kind: how its block is tagged in the markup, how it is shown in the palette, and
the properties that a new field of the kind starts with.
-/

namespace MarketingForm

/-- The palette entry of a kind. -/
structure Definition where
  kind : Kind
  /-- The value of `data-editorblocktype` in the markup. -/
  blockType : String
  /-- The class of the wrapper element; empty for a bare block. -/
  cssClass : String
  label : String
  icon : String
  category : Category
  defaults : Properties

namespace Definition

/-- The key of the definition's kind. -/
def key (d : Definition) : String := d.kind.key

end Definition

/-- The choice list with the given values and labels. -/
private def choicesOf (cs : List (String × String)) : Value :=
  .choices (cs.map fun c => ⟨c.1, c.2⟩)

/-- The definition of a kind. -/
def Kind.definition : Kind → Definition
  | .text => {
      kind := .text
      blockType := "TextFormField"
      cssClass := "textFormFieldBlock"
      label := "Text"
      icon := "📝"
      category := .input
      defaults := .ofList [
        ("label", .text "Text Field"),
        ("placeholder", .text ""),
        ("logicalName", .text ""),
        ("required", .flag false),
        ("prefill", .flag true),
        ("maxLength", .integer 100)] }
  | .email => {
      kind := .email
      blockType := "TextFormField"
      cssClass := "textFormFieldBlock"
      label := "Email"
      icon := "✉️"
      category := .input
      defaults := .ofList [
        ("label", .text "Email"),
        ("placeholder", .text "Enter your email address"),
        ("logicalName", .text "emailaddress1"),
        ("required", .flag true),
        ("prefill", .flag true)] }
  | .phone => {
      kind := .phone
      blockType := "TextFormField"
      cssClass := "phoneFormFieldBlock"
      label := "Phone"
      icon := "📱"
      category := .input
      defaults := .ofList [
        ("label", .text "Phone Number"),
        ("placeholder", .text "Enter your phone number"),
        ("logicalName", .text "mobilephone"),
        ("required", .flag false),
        ("prefill", .flag true)] }
  | .textArea => {
      kind := .textArea
      blockType := "TextAreaFormField"
      cssClass := "textFormFieldBlock"
      label := "Text Area"
      icon := "📄"
      category := .input
      defaults := .ofList [
        ("label", .text "Message"),
        ("placeholder", .text ""),
        ("logicalName", .text "description"),
        ("required", .flag false),
        ("prefill", .flag true),
        ("rows", .integer 5),
        ("maxLength", .integer 2000)] }
  | .dateTime => {
      kind := .dateTime
      blockType := "DateTimeFormField"
      cssClass := "dateTimeFormFieldBlock"
      label := "Date/Time"
      icon := "📅"
      category := .input
      defaults := .ofList [
        ("label", .text "Date"),
        ("placeholder", .text "Select date"),
        ("logicalName", .text ""),
        ("required", .flag false),
        ("prefill", .flag true)] }
  | .dropdown => {
      kind := .dropdown
      blockType := "OptionSetFormField"
      cssClass := "optionSetFormFieldBlock"
      label := "Dropdown"
      icon := "▼"
      category := .selection
      defaults := .ofList [
        ("label", .text "Select Option"),
        ("logicalName", .text ""),
        ("required", .flag false),
        ("prefill", .flag true),
        ("options", choicesOf [("1", "Option 1"), ("2", "Option 2"), ("3", "Option 3")])] }
  | .checkbox => {
      kind := .checkbox
      blockType := "TwoOptionFormField"
      cssClass := "twoOptionFormFieldBlock"
      label := "Checkbox"
      icon := "☑️"
      category := .selection
      defaults := .ofList [
        ("label", .text "I agree"),
        ("logicalName", .text ""),
        ("required", .flag false),
        ("prefill", .flag true),
        ("options", choicesOf [("1", "Yes"), ("0", "No")])] }
  | .radio => {
      kind := .radio
      blockType := "TwoOptionFormField"
      cssClass := "twoOptionFormFieldBlock"
      label := "Radio Buttons"
      icon := "⚪"
      category := .selection
      defaults := .ofList [
        ("label", .text "Choose one"),
        ("logicalName", .text ""),
        ("required", .flag false),
        ("prefill", .flag true),
        ("options", choicesOf [("1", "Yes"), ("0", "No")]),
        ("defaultValue", .text "0")] }
  | .consent => {
      kind := .consent
      blockType := "Consent"
      cssClass := "consentBlock"
      label := "Consent"
      icon := "✅"
      category := .consent
      defaults := .ofList [
        ("label", .text "I agree to receive communications"),
        ("required", .flag true),
        ("complianceSettingsId", .text "00000000-0000-0000-0000-000000000000"),
        ("complianceSettingsName", .text "Default"),
        ("purposeId", .text "10000000-0000-0000-0000-000000000003"),
        ("purposeName", .text "Commercial"),
        ("channels", .text "Email"),
        ("optInWhenChecked", .flag true),
        ("prefill", .flag true)] }
  | .textBlock => {
      kind := .textBlock
      blockType := "Text"
      cssClass := ""
      label := "Text Block"
      icon := "🔤"
      category := .layout
      defaults := .ofList [
        ("content", .text "Enter your text here"),
        ("tag", .text "p"),
        ("align", .text "center")] }
  | .divider => {
      kind := .divider
      blockType := "Divider"
      cssClass := "dividerWrapper"
      label := "Divider"
      icon := "➖"
      category := .layout
      defaults := .ofList [("color", .text "#e1dfdd"), ("thickness", .integer 2)] }
  | .submit => {
      kind := .submit
      blockType := "SubmitButton"
      cssClass := "submitButtonWrapper"
      label := "Submit Button"
      icon := "🔘"
      category := .layout
      defaults := .ofList [("buttonText", .text "Submit")] }

/-- The definition stored under a key. -/
def Definition.lookup? (key : String) : Option Definition :=
  (Kind.ofKey? key).map Kind.definition

/-- All definitions in palette order. -/
def palette : List Definition := Kind.all.map Kind.definition

/-- The definitions of one category, in palette order. -/
def Category.definitions (c : Category) : List Definition :=
  palette.filter fun d => d.category == c

@[simp] theorem Kind.kind_definition (k : Kind) : k.definition.kind = k := by cases k <;> rfl

end MarketingForm
