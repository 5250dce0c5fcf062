import MarketingForm.Export.Error
import MarketingForm.Export.Report

/-!
# Where the page shell comes from

The shell is built in or read from a file, anew for each export.
-/

namespace MarketingForm

open Files

/-- The source of a page shell. -/
inductive ShellSource where
  | builtIn
  | file (path : String)
deriving DecidableEq

variable {m : Type → Type} [Monad m] [Disk m]

namespace ShellSource

/-- A file if one is given, else the built-in shell. -/
def ofPath : Option String → ShellSource
  | some path => file path
  | none => builtIn

def load : ShellSource → ExceptT ExportError m String
  | builtIn => pure builtInShell
  | file path => (readText path).adapt (.shell path)

end ShellSource

/-- Exports a form into a shell that is read first. -/
def Form.exportInto (form : Form) (source : ShellSource) (tokens : Tokens) (fallback : String) :
    ExceptT ExportError m Report := do
  let shell ← source.load
  pure (form.build shell tokens fallback)

end MarketingForm
