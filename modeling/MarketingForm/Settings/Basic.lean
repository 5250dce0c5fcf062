import MarketingForm.Export.Composition
import MarketingForm.Export.Stylesheet
import MarketingForm.Yaml.Bag

/-!
# Settings

What a user has settled for all exports: the page shell, the output directory, the title of untitled
forms and the design tokens. Each of them has a default. A blank settings file gives all defaults.
-/

namespace MarketingForm

open Yaml

/-- The settings of a user; what is not given has a default. -/
structure Settings where
  /-- The file of the page shell; without one the built-in shell is used. -/
  shell : Option String
  outDir : Option String
  titleFallback : Option String
  tokens : Tokens
deriving DecidableEq

namespace Settings

def empty : Settings := ⟨none, none, none, .empty⟩

/-- The output directory; by default the current one. -/
def outputDir (s : Settings) : String := s.outDir.getD "."

/-- The title of untitled forms; a blank one counts as not given. -/
def fallbackTitle (s : Settings) : String :=
  (s.titleFallback.filter fun t => !Text.allBlank t).getD defaultTitle

/-- Settings with the names that have been given. -/
structure Draft where
  settings : Settings
  given : List String

/-- Reads a setting. -/
def readSetting (name : String) (d : Draft) : Decoder Draft := fun s n =>
  let given := name :: d.given
  match name with
  | "shell" => do
    let shell ← optional (textOf "path string") s n
    pure ⟨{ d.settings with shell := shell }, given⟩
  | "out_dir" => do
    let outDir ← optional (textOf "path string") s n
    pure ⟨{ d.settings with outDir := outDir }, given⟩
  | "title_fallback" => do
    let fallback ← optional text s n
    pure ⟨{ d.settings with titleFallback := fallback }, given⟩
  | "tokens" => do
    let tokens ← Bag.decode text s n
    pure ⟨{ d.settings with tokens := tokens }, given⟩
  | _ => do
    passOver n
    pure d

/-- Reads settings. -/
def decode : Decoder Settings :=
  mappingOf "struct Config" ⟨fieldName fun d name => d.given.contains name, readSetting⟩
    ⟨.empty, []⟩ fun d => pure d.settings

/-- Reads the text of a settings file. -/
def ofYaml (text : String) : Except Fault Settings :=
  if Text.allBlank text then .ok .empty else decodeText decode text

end Settings

/-- Reads the text of a token file. -/
def Tokens.ofYaml (text : String) : Except Fault Tokens :=
  if Text.allBlank text then .ok .empty else decodeText (Bag.decode Yaml.text) text

end MarketingForm
