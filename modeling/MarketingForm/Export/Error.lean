import MarketingForm.Files.Disk
import MarketingForm.Yaml.Fault

/-!
# Errors of an export
-/

namespace MarketingForm

open Files

/-- Why an export fails; each error names the path it is about. -/
inductive ExportError where
  | shell (path : String) (e : FileError)
  | io (path : String) (e : FileError)
  /-- A settings file or a token file does not say what it should. -/
  | settings (path : String) (fault : Yaml.Fault)
deriving DecidableEq

namespace ExportError

def message : ExportError → String
  | shell path e => "cannot load template shell " ++ path ++ ": " ++ e.message
  | io path e => "I/O error at " ++ path ++ ": " ++ e.message
  | settings path fault => "invalid config at " ++ path ++ ": " ++ fault.message

/-- The cause behind the error. -/
def causes : ExportError → List String
  | shell _ e => [e.message]
  | io _ e => [e.message]
  | settings _ fault => [fault.message]

end ExportError

end MarketingForm
