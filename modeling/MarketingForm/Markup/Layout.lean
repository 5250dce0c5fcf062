import MarketingForm.Markup.Element

/-!
# Written markup

Every element takes lines of its own, indented by two spaces per level. An element whose children
are all text stays on one line; in any other element each child starts a line. Embedded markup is
copied as it is, because its lines may lie inside attribute values or texts, which indentation would
change.

An attribute value is written in double quotes, unless it holds a double quote and no single quote:
then single quotes keep it readable.
-/

namespace MarketingForm

namespace Attribute

/-- A value with its quotes. -/
def quote (value : List Char) : List Char :=
  if '"' ∈ value ∧ '\'' ∉ value then '\'' :: Position.singleQuoted.encode value ++ ['\'']
  else '"' :: Position.doubleQuoted.encode value ++ ['"']

/-- The attribute with the blank in front of it. -/
def write (a : Attribute) : List Char :=
  match a.value with
  | some v => ' ' :: a.name.toList ++ '=' :: quote v.toList
  | none => ' ' :: a.name.toList

end Attribute

/-- The indentation of a level. -/
def indentation (level : Nat) : List Char := List.replicate (2 * level) ' '

def openingTag (tag : String) (attributes : List Attribute) : List Char :=
  '<' :: tag.toList ++ attributes.flatMap Attribute.write ++ ['>']

def closingTag (tag : String) : List Char := '<' :: '/' :: tag.toList ++ ['>']

namespace Child

/-- Texts and fixed markup stay on their element's line. -/
def isInline : Child → Bool
  | text _ | literal _ => true
  | element .. | embedded _ => false

/-- An inline child as it is written. -/
def writeInline : Child → List Char
  | text s => Position.content.encode s.toList
  | literal s => s.toList
  | element .. | embedded _ => []

/-- Finished markup, ended by a line feed. -/
def writeEmbedded (m : Markup) : List Char :=
  if m.text.toList.getLast? = some '\n' then m.text.toList else m.text.toList ++ ['\n']

mutual

/-- A child on lines of its own. -/
def write (level : Nat) : Child → List Char
  | element tag attributes children =>
    indentation level ++ openingTag tag attributes ++
      (if isVoidTag tag then []
       else if children.all isInline then children.flatMap writeInline ++ closingTag tag
       else '\n' :: writeAll (level + 1) children ++ indentation level ++ closingTag tag) ++ ['\n']
  | embedded m => writeEmbedded m
  | text s => indentation level ++ Position.content.encode s.toList ++ ['\n']
  | literal s => indentation level ++ s.toList ++ ['\n']

/-- The children of an element, each on lines of its own. -/
def writeAll (level : Nat) : List Child → List Char
  | [] => []
  | c :: r => write level c ++ writeAll level r

end

end Child

/-- The markup of an element. -/
def Element.render (e : Element) : Markup := ⟨String.ofList (Child.write 0 e.toChild)⟩

/-- A text that can be spliced into markup in any position. -/
def escape (s : String) : String := String.ofList (Position.anywhere.encode s.toList)

end MarketingForm
