import MarketingForm.Export.Error
import MarketingForm.LineDiff.Unified

/-!
# Delivering documents

A document is written with line feeds only. It goes to a file beside the artifact that then takes
the artifact's place, so an artifact is never half written. An artifact that already says the same
is left alone, and a dry run stops before the first change. `difference` shows what a delivery would
change.
-/

namespace MarketingForm

open Files

/-- A text with line feeds in place of its carriage returns before line feeds. -/
def unixLines : List Char → List Char
  | '\r' :: '\n' :: r => '\n' :: unixLines r
  | c :: r => c :: unixLines r
  | [] => []

def withUnixLines (text : String) : String := String.ofList (unixLines text.toList)

/-- What became of a document. -/
inductive Outcome where
  | written
  | unchanged
  /-- A dry run would have written it. -/
  | wouldWrite
deriving DecidableEq

/-- An artifact and what became of it. -/
structure Delivery where
  path : String
  outcome : Outcome
deriving DecidableEq

variable {m : Type → Type} [Monad m] [Disk m]

/-- The text of an artifact, if there is one. -/
def readArtifact (path : String) : ExceptT ExportError m (Option String) := do
  let text? ← (readText? path).adapt (.io path)
  pure (text?.map withUnixLines)

/-- The file beside an artifact. -/
def besideArtifact (path : String) : String := path ++ ".formforge.tmp"

/-- Creates the directory around a path. -/
def makeParent (path : String) : ExceptT ExportError m Unit :=
  match parent? path with
  | some parent => (makeDirs parent).adapt (.io parent)
  | none => pure ()

/-- Delivers a document into a directory. -/
def deliver (document filename dir : String) (dryRun : Bool) : ExceptT ExportError m Delivery := do
  let path := join dir filename
  let text := withUnixLines document
  if (← readArtifact path) = some text then pure ⟨path, .unchanged⟩
  else if dryRun then pure ⟨path, .wouldWrite⟩
  else
    let beside := besideArtifact path
    makeParent path
    makeParent beside
    replaceText beside path text (.io beside) (.io path)
    pure ⟨path, .written⟩

/-- The unified diff from an artifact to a document, with the artifact's path. -/
structure Difference where
  path : String
  diff : String
deriving DecidableEq

/-- Compares a document with the artifact in a directory; a missing artifact counts as empty. -/
def difference (document filename dir : String) : ExceptT ExportError m Difference := do
  let path := join dir filename
  let new := withUnixLines document
  let old := (← readArtifact path).getD ""
  pure ⟨path, if old = new then "" else LineDiff.unified filename old new⟩

end MarketingForm
