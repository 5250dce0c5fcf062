import MarketingForm.Text.Case

/-!
# Field kinds and their categories
-/

namespace MarketingForm

/-- The closed set of field kinds. -/
inductive Kind where
  | text
  | email
  | phone
  | textArea
  | dateTime
  | dropdown
  | checkbox
  | radio
  | consent
  | textBlock
  | divider
  | submit
deriving DecidableEq, Inhabited

namespace Kind

/-- All kinds in palette order. -/
def all : List Kind :=
  [text, email, phone, textArea, dateTime, dropdown, checkbox, radio, consent, textBlock, divider,
    submit]

/-- The key under which form files store the kind. -/
def key : Kind → String
  | text => "text"
  | email => "email"
  | phone => "phone"
  | textArea => "textarea"
  | dateTime => "datetime"
  | dropdown => "dropdown"
  | checkbox => "checkbox"
  | radio => "radio"
  | consent => "consent"
  | textBlock => "textBlock"
  | divider => "divider"
  | submit => "submit"

/-- The kind stored under a key. -/
def ofKey? (key : String) : Option Kind := all.find? fun k => k.key == key

theorem mem_all (k : Kind) : k ∈ all := by cases k <;> decide

theorem key_injective {k l : Kind} (h : k.key = l.key) : k = l := by
  revert h; cases k <;> cases l <;> decide

@[simp] theorem ofKey?_key (k : Kind) : ofKey? k.key = some k := by cases k <;> decide

end Kind

/-- The groups of the palette. -/
inductive Category where
  | input
  | selection
  | consent
  | layout
deriving DecidableEq, Inhabited

namespace Category

/-- All categories in palette order. -/
def all : List Category := [input, selection, consent, layout]

def id : Category → String
  | input => "input"
  | selection => "selection"
  | consent => "consent"
  | layout => "layout"

def label : Category → String
  | input => "Input Fields"
  | selection => "Selection"
  | consent => "Consent"
  | layout => "Layout"

/-- Reads the exact id. -/
def ofId? (s : String) : Option Category := all.find? fun c => c.id == s

/-- Reads the id in any ASCII case. -/
def parse? (s : String) : Option Category := ofId? (Text.asciiLower s)

/-- Why an id was refused. -/
def refusal (s : String) : String :=
  "unknown category '" ++ s ++ "'; expected: " ++ ", ".intercalate (all.map id)

end Category

end MarketingForm
