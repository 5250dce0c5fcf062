import MarketingForm.Export.Error
import MarketingForm.Export.ShellSource
import MarketingForm.Settings.Basic

/-!
# Settings files

The settings lie below the home directory; without the file they are the defaults. A token file lies
anywhere and must be there.
-/

namespace MarketingForm

open Files

variable {m : Type → Type} [Monad m] [Disk m]

namespace Settings

/-- The path of the settings file. -/
def pathIn (home : String) : String := join (join home ".formforge") "config.yaml"

/-- The source of the page shell. -/
def shellSource (s : Settings) : ShellSource := .ofPath s.shell

/-- Loads the settings of a user. -/
def load (home : String) : ExceptT ExportError m Settings := do
  let path := pathIn home
  match ← (readText? path).adapt (.io path) with
  | none => pure .empty
  | some text =>
    match ofYaml text with
    | .ok s => pure s
    | .error fault => throw (.settings path fault)

end Settings

/-- Loads a token file. -/
def Tokens.load (path : String) : ExceptT ExportError m Tokens := do
  let text ← (readText path).adapt (.io path)
  match ofYaml text with
  | .ok ts => pure ts
  | .error fault => throw (.settings path fault)

end MarketingForm
