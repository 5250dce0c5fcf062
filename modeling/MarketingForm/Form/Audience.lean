import MarketingForm.Text.Case

/-!
# Audiences

The entity that a form writes to. It only decides which logical names are suggested.
-/

namespace MarketingForm

/-- The backing entity of a form. -/
inductive Audience where
  | contact
  | lead
deriving DecidableEq, Inhabited

namespace Audience

def all : List Audience := [contact, lead]

def name : Audience → String
  | contact => "contact"
  | lead => "lead"

/-- Reads the exact name. -/
def ofName? (s : String) : Option Audience := all.find? (·.name == s)

/-- Reads the name in any ASCII case; a refused text comes back in lower case. -/
def parse (s : String) : Except String Audience :=
  let lower := Text.asciiLower s
  match ofName? lower with
  | some a => .ok a
  | none => .error lower

/-- Why a name was refused. -/
def refusal (s : String) : String := "unknown audience '" ++ s ++ "'; expected: contact, lead"

/-- The suggested logical names of an entity with their labels. -/
def suggestions : Audience → List (String × String)
  | contact => [
      ("firstname", "First Name"),
      ("lastname", "Last Name"),
      ("emailaddress1", "Email"),
      ("mobilephone", "Mobile Phone"),
      ("telephone1", "Business Phone"),
      ("jobtitle", "Job Title"),
      ("companyname", "Company Name"),
      ("address1_city", "City"),
      ("address1_country", "Country"),
      ("description", "Description")]
  | lead => [
      ("firstname", "First Name"),
      ("lastname", "Last Name"),
      ("emailaddress1", "Email"),
      ("mobilephone", "Mobile Phone"),
      ("telephone1", "Business Phone"),
      ("jobtitle", "Job Title"),
      ("companyname", "Company Name"),
      ("subject", "Topic"),
      ("description", "Description")]

end Audience

end MarketingForm
