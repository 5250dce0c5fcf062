import MarketingForm.Command.Basic
import MarketingForm.Command.Report
import MarketingForm.Export.Delivery
import MarketingForm.Form.Edit
import MarketingForm.Form.File
import MarketingForm.Form.Reading
import MarketingForm.Json.Pretty
import MarketingForm.Settings.File
import MarketingForm.Table.Rounded

/-!
# Carrying out tasks

A task prints what it did, warns of what it left out, and stops at its first failure. An edit loads
the form, changes it and saves it again; if any of that fails, the file is as it was.
-/

namespace MarketingForm

open Files

/-- What a task has printed. -/
structure Printed where
  out : String
  err : String
deriving DecidableEq

/-- A task at work on a disk. -/
abbrev Work (m : Type → Type) := ExceptT Failure (StateT Printed m)

variable {m : Type → Type} [Monad m] [Disk m]

namespace Work

/-- Prints a text. -/
def print (text : String) : Work m Unit := modify fun p => { p with out := p.out ++ text }

/-- Prints a line. -/
def printLine (text : String) : Work m Unit := print (text ++ "\n")

/-- Prints a warning. -/
def warn (text : String) : Work m Unit :=
  modify fun p => { p with err := p.err ++ "warning: " ++ text ++ "\n" }

/-- Does something on the disk; a failure comes with what was to be done. -/
def attempt {ε α : Type} (context : String) (causes : ε → List String) (x : ExceptT ε m α) :
    Work m α := do
  match ← (x.run : m (Except ε α)) with
  | .ok a => pure a
  | .error e => throw ⟨context, causes e⟩

/-- Goes on with a result; a failure comes with what was to be done. -/
def expect {ε α : Type} (context : String) (causes : ε → List String) : Except ε α → Work m α
  | .ok a => pure a
  | .error e => throw ⟨context, causes e⟩

end Work

open Work

/-! ### Forms -/

def formCauses (e : FormFileError) : List String := e.message :: e.causes

def exportCauses (e : ExportError) : List String := e.message :: e.causes

def loadForm (path : String) : Work m Form :=
  attempt ("failed to load form '" ++ path ++ "'") formCauses (Form.load path)

def saveForm (path : String) (form : Form) : Work m Unit :=
  attempt ("failed to save form '" ++ path ++ "'") formCauses (Form.save path form)

/-- Creates an empty form; an existing file is only overwritten by force. -/
def createForm (path title : String) (audience : Audience) (force : Bool) : Work m Unit := do
  if (← (Disk.exists? path : m Bool)) && !force then
    throw ⟨"'" ++ path ++ "' already exists; pass --force to overwrite", []⟩
  saveForm path { Form.new title with audience := audience }
  printLine ("✓ Created '" ++ path ++ "' (" ++ audience.name ++ ")")

def addField (newId : FieldId) (path typeKey : String) (position : Option Nat) : Work m Unit := do
  let form ← loadForm path
  let form ← expect ("cannot add '" ++ typeKey ++ "'; see `formforge palette`")
    (fun e => [EditError.message e]) (form.add newId typeKey position)
  saveForm path form
  printLine ("✓ Added " ++ typeKey ++ " field " ++ newId.text)

def removeField (path id : String) : Work m Unit := do
  let form ← loadForm path
  let (field, form) ← expect "cannot remove field" (fun e => [EditError.message e])
    (form.remove ⟨id⟩)
  saveForm path form
  printLine ("✓ Removed " ++ field.typeKey ++ " field " ++ field.id.text)

/-- The value that tells how a typed property is read: the default of the field's kind, else the
value that the field has. -/
def Field.template (f : Field) (name : String) : Option Value :=
  ((Definition.lookup? f.typeKey).bind fun d => d.defaults.get? name).or (f.props.get? name)

/-- Reads a typed property value. -/
def typedValue (f : Field) (name raw : String) (asText : Bool) : Except ReadingError Value :=
  if asText then .ok (.text raw) else Value.read (f.template name) raw

def setProperty (path id name raw : String) (asText : Bool) : Work m Unit := do
  let form ← loadForm path
  match form.field? ⟨id⟩ with
  | none => throw ⟨(EditError.noField ⟨id⟩).message, []⟩
  | some field =>
    let v ← expect ("invalid value for '" ++ name ++ "'")
      (fun e => ReadingError.message e :: e.causes) (typedValue field name raw asText)
    let form ← expect (EditError.noField ⟨id⟩).message (fun _ => []) (form.set ⟨id⟩ name v)
    saveForm path form
    printLine ("✓ " ++ id ++ "." ++ name ++ " = " ++ v.display)

/-- What a listing shows of a field: the first of its captions. -/
def Field.caption (f : Field) : String :=
  ((["label", "content", "buttonText"].findSome? f.props.get?).map Value.display).getD ""

/-- The rows of a listing. -/
def Form.listing (form : Form) : List (List String) :=
  form.fields.mapIdx fun i f => [Text.decimal i, f.id.text, f.typeKey, f.caption]

def listFields (path : String) : Work m Unit := do
  let form ← loadForm path
  printLine (form.title ++ " (" ++ form.audience.name ++ ", " ++ Text.decimal form.fields.length ++
    " fields)")
  if form.fields.isEmpty then
    printLine ("No fields yet. Run: formforge add " ++ path ++ " <type>")
  else printLine (Table.rounded ["#", "id", "type", "caption"] form.listing)

/-- Prints the fragments of a form; a field without one is warned of. -/
def renderAll (form : Form) : Work m Unit :=
  form.fields.forM fun f =>
    match f.render with
    | .ok markup => print markup.text
    | .error u => warn u.message

def renderFields (path : String) (id? : Option String) : Work m Unit := do
  let form ← loadForm path
  match id? with
  | none => renderAll form
  | some id =>
    match form.field? ⟨id⟩ with
    | none => throw ⟨(EditError.noField ⟨id⟩).message, []⟩
    | some field =>
      let markup ← expect ("cannot render field '" ++ id ++ "'")
        (fun u => [UnknownField.message u]) field.render
      print markup.text

/-! ### Palette -/

/-- The palette entries of a category as JSON. -/
def Category.toJson (c : Category) : Json.Tree :=
  .object [
    ("id", .text c.id),
    ("label", .text c.label),
    ("types", .array (c.definitions.map fun d => .object [
      ("key", .text d.key),
      ("label", .text d.label),
      ("icon", .text d.icon),
      ("block_type", .text d.blockType)]))]

/-- The palette entries of a category as a table. -/
def Category.table (c : Category) : String :=
  Table.rounded ["", "key", "label", "block type"]
    (c.definitions.map fun d => [d.icon, d.key, d.label, d.blockType])

def showPalette (only : Option Category) (json : Bool) : Work m Unit := do
  let categories := Category.all.filter fun c => only.all (· == c)
  if json then printLine (Json.Tree.array (categories.map Category.toJson)).pretty
  else categories.forM fun c => do
    printLine c.label
    printLine c.table

def showNames (audience : Option Audience) (path : Option String) (json : Bool) : Work m Unit := do
  let audience ←
    match audience, path with
    | some a, _ => pure a
    | none, some path => do pure (← loadForm path).audience
    | none, none => pure default
  if json then
    printLine (Json.Tree.array (audience.suggestions.map fun n =>
      .object [("value", .text n.1), ("label", .text n.2)])).pretty
  else
    printLine ("Audience: " ++ audience.name)
    printLine (Table.rounded ["logical name", "label"]
      (audience.suggestions.map fun n => [n.1, n.2]))

/-! ### Exports -/

/-- What an export works with. -/
structure Plan where
  shell : ShellSource
  tokens : Tokens
  outDir : String
  fallback : String

/-- The settings with what the command line puts over them. -/
def planOf (home : String) (o : Overrides) : Work m Plan := do
  let settings ← attempt "failed to load ~/.formforge/config.yaml" exportCauses
    (Settings.load home)
  let tokens ←
    match o.tokens with
    | none => pure settings.tokens
    | some path => do
      let extra ← attempt ("failed to load tokens '" ++ path ++ "'") exportCauses
        (Tokens.load path)
      pure (settings.tokens.overlay extra)
  pure {
    shell := (o.shell.map .file).getD settings.shellSource
    tokens := tokens
    outDir := o.outDir.getD settings.outputDir
    fallback := settings.fallbackTitle }

/-- Exports a form and warns of what the export left out. -/
def exportReport (form : Form) (plan : Plan) : Work m Report := do
  let report ← attempt "export failed" exportCauses
    (form.exportInto plan.shell plan.tokens plan.fallback)
  report.skipped.forM fun u =>
    warn ("skipped field '" ++ u.id.text ++ "' (" ++ u.message ++ ")")
  report.missing.forM fun p =>
    warn ("template shell has no " ++ p.mark ++ "; that segment is missing")
  report.duplicates.forM fun p =>
    warn ("template shell repeats " ++ p.mark ++ "; only the first was filled")
  pure report

/-- What is printed about a delivery. -/
def deliveryLines (report : Report) (d : Delivery) (dryRun : Bool) : String :=
  let lead := if dryRun then "[dry-run] ✓ " else "✓ "
  let count := Text.decimal report.rendered ++ (if report.rendered = 1 then " field" else " fields")
  let artifact := "'" ++ report.filename ++ "'"
  match d.outcome with
  | .written => lead ++ "Exported " ++ artifact ++ " (" ++ count ++ ")\n  ✎  " ++ d.path ++ "\n"
  | .wouldWrite =>
    lead ++ "Would export " ++ artifact ++ " (" ++ count ++ ")\n  ~  " ++ d.path ++ "\n"
  | .unchanged => lead ++ artifact ++ " is up to date\n  ·  " ++ d.path ++ "\n"

def publish (home path : String) (o : Overrides) (dryRun : Bool) : Work m Unit := do
  let form ← loadForm path
  let plan ← planOf home o
  let report ← exportReport form plan
  let d ← attempt ("failed to write '" ++ report.filename ++ "'") exportCauses
    (deliver report.document report.filename plan.outDir dryRun)
  print (deliveryLines report d dryRun)

/-- A text with a line feed at its end. -/
def endedLine (text : String) : String :=
  if text.toList.getLast? = some '\n' then text else text ++ "\n"

def compareArtifact (home path : String) (o : Overrides) : Work m Unit := do
  let form ← loadForm path
  let plan ← planOf home o
  let report ← exportReport form plan
  let d ← attempt ("diff failed for '" ++ report.filename ++ "'") exportCauses
    (difference report.document report.filename plan.outDir)
  if d.diff = "" then printLine ("No differences for '" ++ report.filename ++ "'.")
  else print (endedLine d.diff)

/-! ### The program -/

/-- Carries out a task; `newId` is the id of a field that is added. -/
def Task.work (newId : FieldId) (home : String) : Task → Work m Unit
  | create path title audience force => createForm path title audience force
  | add path typeKey position => addField newId path typeKey position
  | remove path id => removeField path id
  | set path id name value asText => setProperty path id name value asText
  | list path => listFields path
  | palette category json => showPalette category json
  | names audience path json => showNames audience path json
  | render path field => renderFields path field
  | publish path o dryRun => MarketingForm.publish home path o dryRun
  | compare path o => compareArtifact home path o

/-- How a run of the program ended. -/
structure Ending where
  code : Nat
  printed : Printed
deriving DecidableEq

/-- Carries out a task and reports its failure. -/
def Task.run (newId : FieldId) (home : String) (t : Task) : m Ending := do
  match ← ((t.work newId home).run : StateT Printed m (Except Failure Unit)).run ⟨"", ""⟩ with
  | (.ok (), p) => pure ⟨0, p⟩
  | (.error f, p) => pure ⟨1, { p with err := p.err ++ f.report }⟩

/-- The name and version of the program. -/
def versionLine : String := "formforge 0.1.0\n"

def usageLine : String := "Usage: formforge <COMMAND>\n"

/-- Runs a command line; one that is refused ends with code 2. -/
def runWords (newId : FieldId) (home : String) (words : List String) : m Ending :=
  match Request.ofWords words with
  | none => pure ⟨2, ⟨"", usageLine⟩⟩
  | some .version => pure ⟨0, ⟨versionLine, ""⟩⟩
  | some .help => pure ⟨0, ⟨usageLine, ""⟩⟩
  | some (.task t) => t.run newId home

end MarketingForm
