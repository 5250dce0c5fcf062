import MarketingForm.Text.Quoted
import MarketingForm.Yaml.Meaning
import MarketingForm.Yaml.Node

/-!
# Faults in YAML documents

A document may be broken as a text, or it may be sound and say something else than expected. In the
second case the fault is a cause with the place of the node it belongs to. A fault that is found on
the way out of a node, such as a missing field, gets its place from the node around it.
-/

namespace MarketingForm.Yaml

/-- The way from the root of a document to a value in it. -/
inductive Path where
  | root
  | item (parent : Path) (index : Nat)
  | member (parent : Path) (key : List Char)
  /-- A member whose key is not a scalar. -/
  | unnamed (parent : Path)
deriving DecidableEq

namespace Path

/-- The member of a mapping with a key. -/
def child (p : Path) (key : Node) : Path :=
  match key with
  | .scalar _ _ _ text => member p text
  | _ => unnamed p

/-- The path as messages show it; the root has no name. -/
def describe : Path → String
  | root => ""
  | item p i => p.describe ++ "[" ++ toString i ++ "]"
  | member p key => lead p ++ String.ofList key
  | unnamed p => lead p ++ "?"
where
  /-- What stands before the name of a member. -/
  lead (p : Path) : String := if p = root then "" else p.describe ++ "."

end Path

/-- What a node is when it is not what was expected. -/
inductive Found where
  | mapping
  | sequence
  | scalar (meaning : Meaning)
deriving DecidableEq

def Found.named : Found → String
  | mapping => "map"
  | sequence => "sequence"
  | scalar m => m.named

/-- What a document says wrong. -/
inductive Cause where
  /-- A node of another type than expected. -/
  | wrongType (found : Found) (expected : String)
  /-- A scalar whose text is none of the expected values. -/
  | wrongText (text : List Char) (expected : String)
  /-- A word that is none of the known ones. -/
  | unknownVariant (text : List Char) (known : List String)
  | missingField (name : String)
  | duplicateField (name : String)
  /-- A value of no kind that the type has. -/
  | noVariant (type : String)
  /-- A local tag on an untyped value. -/
  | localTag
deriving DecidableEq

/-- Names in backquotes, with `or` before the last of two. -/
def quotedNames : List String → String
  | [a, b] => "`" ++ a ++ "` or `" ++ b ++ "`"
  | names => ", ".intercalate (names.map fun a => "`" ++ a ++ "`")

def Cause.message : Cause → String
  | wrongType found expected => "invalid type: " ++ found.named ++ ", expected " ++ expected
  | wrongText text expected =>
    "invalid value: string " ++ Text.quoted (String.ofList text) ++ ", expected " ++ expected
  | unknownVariant text known =>
    "unknown variant `" ++ String.ofList text ++ "`, expected " ++ quotedNames known
  | missingField name => "missing field `" ++ name ++ "`"
  | duplicateField name => "duplicate field `" ++ name ++ "`"
  | noVariant type => "data did not match any variant of untagged enum " ++ type
  | localTag => "untagged and internally tagged enums do not support enum input"

/-- The place of a node: its path and where it starts. -/
structure Place where
  path : Path
  mark : Mark
deriving DecidableEq

/-- Why a text cannot be read as a value. -/
inductive Fault where
  /-- The text is not a sound document. -/
  | broken
  /-- Collections are nested too deeply. -/
  | tooDeep (mark : Mark)
  /-- Too many aliases are followed. -/
  | tooManyAliases
  | mismatch (cause : Cause) (place : Option Place)
deriving DecidableEq

namespace Fault

/-- Gives a fault its place unless it has one. -/
def placed (f : Fault) (place : Place) : Fault :=
  match f with
  | mismatch cause none => mismatch cause (some place)
  | f => f

/-- The mark counted from one; the start of the text is not mentioned. -/
def markSuffix (m : Mark) : String :=
  if m.line = 0 ∧ m.column = 0 then ""
  else " at line " ++ toString (m.line + 1) ++ " column " ++ toString (m.column + 1)

/-- The fault in words. -/
def message : Fault → String
  | broken => "not a sound YAML document"
  | tooDeep mark => "recursion limit exceeded" ++ markSuffix mark
  | tooManyAliases => "repetition limit exceeded"
  | mismatch cause none => cause.message
  | mismatch cause (some ⟨path, mark⟩) =>
    (if path = .root then "" else path.describe ++ ": ") ++ cause.message ++ markSuffix mark

end Fault

end MarketingForm.Yaml
