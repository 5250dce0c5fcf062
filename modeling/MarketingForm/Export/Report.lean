import MarketingForm.Export.Composition
import MarketingForm.Export.Filename
import MarketingForm.Export.Shell
import MarketingForm.Export.Stylesheet
import MarketingForm.Fragment.Basic

/-!
# Exports

An export renders every field in order, compiles the tokens and fills the shell. A field of an
unknown kind is skipped and reported; the others still render.
-/

namespace MarketingForm

/-- What one export produced. -/
structure Report where
  document : String
  filename : String
  rendered : Nat
  skipped : List UnknownField
  missing : List Placeholder
  duplicates : List Placeholder
deriving DecidableEq

namespace Report

/-- Whether the export left out or repeated anything. -/
def hasWarnings (r : Report) : Bool :=
  !r.skipped.isEmpty || !r.missing.isEmpty || !r.duplicates.isEmpty

end Report

namespace Form

/-- The fragments of the fields in order. -/
def fragments (form : Form) : List Markup := form.fields.filterMap fun f => f.render.toOption

/-- The fields that have no fragment, in order. -/
def skipped (form : Form) : List UnknownField :=
  form.fields.filterMap fun f =>
    match f.render with
    | .ok _ => none
    | .error u => some u

/-- The form's title, or the fallback for a blank one. -/
def effectiveTitle (form : Form) (fallback : String) : String :=
  if Text.allBlank form.title then fallback else form.title

/-- Exports a form into a shell. -/
def build (form : Form) (shell : String) (tokens : Tokens) (fallback : String) : Report :=
  let title := form.effectiveTitle fallback
  let composition := compose shell title tokens.css form.fragments
  { document := composition.document
    filename := artifactName title
    rendered := form.fragments.length
    skipped := form.skipped
    missing := composition.missing
    duplicates := composition.duplicates }

end Form

end MarketingForm
