import MarketingForm.Command.Arguments
import MarketingForm.Form.Audience
import MarketingForm.Form.Kind
import MarketingForm.Text.Numeral

/-!
# Commands

What the program can be asked for, and how it is written on the command line. A command line that
fits no command is refused as a whole.
-/

namespace MarketingForm

open Command

/-- Where an export differs from the settings. -/
structure Overrides where
  outDir : Option String
  shell : Option String
  tokens : Option String
deriving DecidableEq

/-- A task of the program. -/
inductive Task where
  /-- Creates an empty form. -/
  | create (path title : String) (audience : Audience) (force : Bool)
  | add (path typeKey : String) (position : Option Nat)
  | remove (path id : String)
  | set (path id name value : String) (asText : Bool)
  /-- Lists the fields of a form. -/
  | list (path : String)
  | palette (category : Option Category) (json : Bool)
  /-- Lists suggested logical names, of an audience or of a form's audience. -/
  | names (audience : Option Audience) (path : Option String) (json : Bool)
  | render (path : String) (field : Option String)
  /-- Writes the document of a form. -/
  | publish (path : String) (overrides : Overrides) (dryRun : Bool)
  /-- Shows what `publish` would change. -/
  | compare (path : String) (overrides : Overrides)
deriving DecidableEq

/-- What a command line asks for. -/
inductive Request where
  | version
  | help
  | task (t : Task)
deriving DecidableEq

namespace Command

/-- A path; it must not be empty. -/
def pathOf (word : String) : Option String := if word = "" then none else some word

/-- The value of an option that may be missing, read by `read`; nothing if it is refused. -/
def optionOf {α : Type} (read : String → Option α) (a : Arguments) (name : String) :
    Option (Option α) :=
  match a.value? name with
  | none => some none
  | some v => (read v).map some

/-- A position: digits with an optional plus sign, of 64 bits. -/
def positionOf (word : String) : Option Nat :=
  let ds :=
    match word.toList with
    | '+' :: ds => ds
    | ds => ds
  (Text.readNumeral? 10 ds).filter (· < UInt64.size)

def audienceOf (word : String) : Option Audience := (Audience.parse word).toOption

def overridesOf (a : Arguments) : Option Overrides := do
  some ⟨← optionOf pathOf a "out", ← optionOf pathOf a "shell", ← optionOf pathOf a "tokens"⟩

/-- A command: its name, its options and what it makes of its arguments. -/
structure Spec where
  name : String
  options : List OptionSpec
  read : Arguments → Option Task

def overrideOptions : List OptionSpec :=
  [⟨"out", some 'o', true⟩, ⟨"shell", none, true⟩, ⟨"tokens", none, true⟩]

def createSpec : Spec where
  name := "new"
  options := [⟨"title", some 't', true⟩, ⟨"audience", some 'a', true⟩, ⟨"force", none, false⟩]
  read a :=
    match a.positionals with
    | [path] => do
      let path ← pathOf path
      let title ← a.value? "title"
      let audience ← optionOf audienceOf a "audience"
      some (.create path title (audience.getD default) (a.has "force"))
    | _ => none

def addSpec : Spec where
  name := "add"
  options := [⟨"at", none, true⟩]
  read a :=
    match a.positionals with
    | [path, typeKey] => do
      some (.add (← pathOf path) typeKey (← optionOf positionOf a "at"))
    | _ => none

def removeSpec : Spec where
  name := "remove"
  options := []
  read a :=
    match a.positionals with
    | [path, id] => (pathOf path).map fun path => .remove path id
    | _ => none

def setSpec : Spec where
  name := "set"
  options := [⟨"text", none, false⟩]
  read a :=
    match a.positionals with
    | [path, id, name, value] =>
      (pathOf path).map fun path => .set path id name value (a.has "text")
    | _ => none

def listSpec : Spec where
  name := "show"
  options := []
  read a :=
    match a.positionals with
    | [path] => (pathOf path).map .list
    | _ => none

def paletteSpec : Spec where
  name := "palette"
  options := [⟨"json", none, false⟩, ⟨"category", some 'c', true⟩]
  read a :=
    match a.positionals with
    | [] => (optionOf Category.parse? a "category").map fun c => .palette c (a.has "json")
    | _ => none

def namesSpec : Spec where
  name := "names"
  options := [⟨"audience", some 'a', true⟩, ⟨"form", none, true⟩, ⟨"json", none, false⟩]
  read a :=
    match a.positionals with
    | [] =>
      if a.has "audience" && a.has "form" then none
      else do
        some (.names (← optionOf audienceOf a "audience") (← optionOf pathOf a "form")
          (a.has "json"))
    | _ => none

def renderSpec : Spec where
  name := "render"
  options := [⟨"field", none, true⟩]
  read a :=
    match a.positionals with
    | [path] => (pathOf path).map fun path => .render path (a.value? "field")
    | _ => none

def publishSpec : Spec where
  name := "export"
  options := ⟨"dry-run", none, false⟩ :: overrideOptions
  read a :=
    match a.positionals with
    | [path] => do some (.publish (← pathOf path) (← overridesOf a) (a.has "dry-run"))
    | _ => none

def compareSpec : Spec where
  name := "diff"
  options := overrideOptions
  read a :=
    match a.positionals with
    | [path] => do some (.compare (← pathOf path) (← overridesOf a))
    | _ => none

/-- All commands. -/
def specs : List Spec :=
  [createSpec, addSpec, removeSpec, setSpec, listSpec, paletteSpec, namesSpec, renderSpec,
    publishSpec, compareSpec]

/-- Reads the words after a command's name. -/
def Spec.request (s : Spec) (words : List String) : Option Request := do
  let a ← readArguments s.options words
  if a.has helpOption.name then some .help else (s.read a).map .task

end Command

/-- Reads a command line. -/
def Request.ofWords : List String → Option Request
  | [] => none
  | w :: rest =>
    if w = "--version" ∨ w = "-V" then some .version
    else if w = "--help" ∨ w = "-h" ∨ w = "help" then some .help
    else (specs.find? (·.name == w)).bind fun s => s.request rest

end MarketingForm
