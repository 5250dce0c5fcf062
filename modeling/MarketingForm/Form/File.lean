import MarketingForm.Files.Disk
import MarketingForm.Form.Decode
import MarketingForm.Form.Encode

/-!
# Form files

A form lives in one file. Saving goes by way of a file beside it that then takes its place, so a
form file is never half written.
-/

namespace MarketingForm

open Files

/-- Why a form file cannot be loaded or saved. -/
inductive FormFileError where
  | io (e : FileError)
  | parse (path : String) (fault : Yaml.Fault)
  | notFound (path : String)
deriving DecidableEq

namespace FormFileError

def message : FormFileError → String
  | io e => "I/O error: " ++ e.message
  | parse path fault => "failed to parse form at " ++ path ++ ": " ++ fault.message
  | notFound path => "form not found at " ++ path

/-- The causes behind the error, outermost first. -/
def causes : FormFileError → List String
  | io e => [e.message]
  | parse _ fault => [fault.message]
  | notFound _ => []

end FormFileError

namespace Form

variable {m : Type → Type} [Monad m] [Disk m]

/-- Loads a form. -/
def load (path : String) : ExceptT FormFileError m Form := do
  if ← (Disk.exists? path : m Bool) then
    let text ← (readText path).adapt .io
    match ofYaml text with
    | .ok form => pure form
    | .error fault => throw (.parse path fault)
  else throw (.notFound path)

/-- The file beside a form file. -/
def besidePath (path : String) : String :=
  withFileName path ((fileName? path).getD "" ++ ".tmp")

/-- Saves a form; missing parent directories are created. -/
def save (path : String) (form : Form) : ExceptT FormFileError m Unit := do
  match (parent? path).filter (· != "") with
  | some parent => (makeDirs parent).adapt .io
  | none => pure ()
  replaceText (besidePath path) path form.toYaml .io .io

end Form

end MarketingForm
