import MarketingForm.Form.Basic
import MarketingForm.Yaml.Bag
import MarketingForm.Yaml.Content

/-!
# Reading forms from YAML

A form file is a mapping with a title, an audience and fields; a field is a mapping with an id, the
key of its kind and properties. Only the title, the id and the kind must be given. The kind of a
property's value is read off the scalar itself. Fields with other names are passed over.
-/

namespace MarketingForm

open Yaml

/-! ### Values -/

/-- The member of a choice that a key stands for; members may also be counted. -/
inductive ChoiceMember where
  | value
  | label
  | other
deriving DecidableEq

namespace ChoiceMember

/-- The member with a name. -/
def ofName (s : String) : ChoiceMember :=
  if s = "value" then value else if s = "label" then label else other

/-- The member that a key stands for; nothing if the key is no name and no count. -/
def ofContent? : Content → Option ChoiceMember
  | .text s => some (ofName s)
  | .integer false n => some (if n = 0 then value else if n = 1 then label else other)
  | _ => none

end ChoiceMember

namespace Choice

/-- Reads the members of a choice: each of the two once, and both texts. -/
def ofEntries? (value label : Option String) : List (Content × Content) → Option Choice
  | [] => value.bind fun v => label.map fun l => ⟨v, l⟩
  | (k, c) :: r =>
    match ChoiceMember.ofContent? k, c with
    | some .value, .text s => if value.isSome then none else ofEntries? (some s) label r
    | some .label, .text s => if label.isSome then none else ofEntries? value (some s) r
    | some .other, _ => ofEntries? value label r
    | _, _ => none

/-- A choice is a mapping, or its two texts in a sequence. -/
def ofContent? : Content → Option Choice
  | .sequence [.text v, .text l] => some ⟨v, l⟩
  | .mapping es => ofEntries? none none es
  | _ => none

end Choice

namespace Value

/-- The value that a content stands for, if it is of one of the four kinds. -/
def ofContent? : Content → Option Value
  | .boolean b => some (.flag b)
  | .integer _ n =>
    if Int64.minValue.toInt ≤ n ∧ n ≤ Int64.maxValue.toInt then some (.integer (Int64.ofInt n))
    else none
  | .text s => some (.text s)
  | .sequence items => (items.mapM Choice.ofContent?).map .choices
  | _ => none

/-- Reads the value of a property. -/
def decode : Decoder Value := fun s n => do
  let c ← Content.decode s n
  match ofContent? c with
  | some v => pure v
  | none => mismatch (.noVariant "PropValue")

end Value

/-! ### Fields -/

/-- What has been read of a field. -/
structure FieldDraft where
  id : Option FieldId
  typeKey : Option String
  props : Option Properties

namespace FieldDraft

def empty : FieldDraft := ⟨none, none, none⟩

/-- Whether a member has been given. -/
def gives (d : FieldDraft) (name : String) : Bool :=
  match name with
  | "id" => d.id.isSome
  | "type" => d.typeKey.isSome
  | "props" => d.props.isSome
  | _ => false

/-- Reads a member. -/
def readMember (name : String) (d : FieldDraft) : Decoder FieldDraft := fun s n =>
  match name with
  | "id" => do
    let id ← text s n
    pure { d with id := some ⟨id⟩ }
  | "type" => do
    let key ← text s n
    pure { d with typeKey := some key }
  | "props" => do
    let props ← Bag.decode Value.decode s n
    pure { d with props := some props }
  | _ => do
    passOver n
    pure d

def finish (d : FieldDraft) : Decode Field := do
  let id ← required "id" d.id
  let typeKey ← required "type" d.typeKey
  pure ⟨id, typeKey, d.props.getD .empty⟩

end FieldDraft

/-- Reads a field. -/
def Field.decode : Decoder Field :=
  mappingOf "struct FieldInstance" ⟨fieldName FieldDraft.gives, FieldDraft.readMember⟩
    .empty FieldDraft.finish

/-! ### Forms -/

namespace Audience

def names : List String := all.map name

/-- The audience with an exact name. -/
def ofWord (word : List Char) : Decode Audience :=
  match ofName? (String.ofList word) with
  | some a => pure a
  | none => mismatch (.unknownVariant word names)

/-- What follows a tag that names an audience: nothing or a null. -/
def tagPayload (t : Node) : Decode Unit :=
  match t with
  | .scalar _ _ style text =>
    if style = .plain ∧ (text.isEmpty || isNullWord text) = true then pure ()
    else mismatch (.wrongText text "null")
  | t => unexpected t "unit"

/-- Reads a node with a local tag: the tag names the audience. -/
def ofTag (name : List Char) : Decoder Audience := fun s t => do
  let a ← ofWord name
  placedAt s t.mark (tagPayload t)
  pure a

/-- Reads a node without a local tag: a scalar names the audience. -/
def ofUntagged : Decoder Audience := fun s t =>
  placedAt s t.mark <|
    match t with
    | .scalar _ _ _ word => ofWord word
    | .sequence .. => mismatch (.wrongType .sequence "a YAML tag starting with '!'")
    | .mapping .. => mismatch (.wrongType .mapping "a YAML tag starting with '!'")
    | .reference .. => broken

/-- Reads the name of an audience, or a local tag that names it. -/
def decode : Decoder Audience := fun s n => do
  let t ← follow n
  let a :=
    match t.localTag? with
    | some name => ofTag name s t
    | none => ofUntagged s t
  match n with
  | .reference m _ => placedAt s m a
  | _ => a

end Audience

/-- What has been read of a form. -/
structure FormDraft where
  title : Option String
  audience : Option Audience
  fields : Option (List Field)

namespace FormDraft

def empty : FormDraft := ⟨none, none, none⟩

/-- Whether a member has been given. -/
def gives (d : FormDraft) (name : String) : Bool :=
  match name with
  | "title" => d.title.isSome
  | "audience" => d.audience.isSome
  | "fields" => d.fields.isSome
  | _ => false

/-- Reads a member. -/
def readMember (name : String) (d : FormDraft) : Decoder FormDraft := fun s n =>
  match name with
  | "title" => do
    let title ← text s n
    pure { d with title := some title }
  | "audience" => do
    let audience ← Audience.decode s n
    pure { d with audience := some audience }
  | "fields" => do
    let fields ← sequenceOf Field.decode s n
    pure { d with fields := some fields }
  | _ => do
    passOver n
    pure d

def finish (d : FormDraft) : Decode Form := do
  let title ← required "title" d.title
  pure ⟨title, d.audience.getD default, d.fields.getD []⟩

end FormDraft

namespace Form

/-- Reads a form. -/
def decode : Decoder Form :=
  mappingOf "struct FormDocument" ⟨fieldName FormDraft.gives, FormDraft.readMember⟩
    .empty FormDraft.finish

/-- Reads the text of a form file. -/
def ofYaml (text : String) : Except Fault Form := decodeText decode text

end Form

end MarketingForm
