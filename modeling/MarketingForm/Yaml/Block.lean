import MarketingForm.Yaml.Spelling

/-!
# Block layout

Values are laid out as blocks: one entry or item per line, mappings indented by two columns, and
sequences not indented below their key. Empty collections are written in brackets.
-/

namespace MarketingForm.Yaml

/-- A value to be written. -/
inductive Block where
  /-- A word that stands for itself, such as a number. -/
  | word (s : List Char)
  | text (s : List Char)
  | sequence (items : List Block)
  | mapping (entries : List (List Char × Block))
deriving Inhabited

namespace Block

/-- A line with its end, unless it ends in a break. -/
def endLine (s : List Char) : List Char :=
  if s.getLast?.any isBreak then s else s ++ ['\n']

def pad (indent : Nat) : List Char := List.replicate indent ' '

mutual

/-- A value after its key. -/
def writeValue (indent : Nat) : Block → List Char
  | word s => ' ' :: endLine s
  | text s => ' ' :: endLine (spell indent s)
  | sequence xs =>
    if xs.isEmpty then " []\n".toList else '\n' :: pad indent ++ writeItems indent xs
  | mapping es =>
    if es.isEmpty then " \x7b\x7d\n".toList
    else '\n' :: pad (indent + 2) ++ writeEntries (indent + 2) es

/-- A value after a mark; a collection starts on the same line. -/
def writeMarked (indent : Nat) : Block → List Char
  | word s => ' ' :: endLine s
  | text s => ' ' :: endLine (spell indent s)
  | sequence xs => if xs.isEmpty then " []\n".toList else ' ' :: writeItems (indent + 2) xs
  | mapping es =>
    if es.isEmpty then " \x7b\x7d\n".toList else ' ' :: writeEntries (indent + 2) es

/-- The items of a sequence from a place where the first one is indented. -/
def writeItems (indent : Nat) : List Block → List Char
  | [] => []
  | x :: xs =>
    '-' :: writeMarked indent x ++ (if xs.isEmpty then [] else pad indent ++ writeItems indent xs)

/-- The entries of a mapping from a place where the first one is indented. -/
def writeEntries (indent : Nat) : List (List Char × Block) → List Char
  | [] => []
  | (k, v) :: es =>
    (if isSimpleKey k then spell indent k ++ ':' :: writeValue indent v
      else '?' :: ' ' :: endLine (spell indent k) ++ pad indent ++ ':' :: writeMarked indent v) ++
    (if es.isEmpty then [] else pad indent ++ writeEntries indent es)

end

/-- The text of a document whose root is a mapping with entries. -/
def writeDocument (entries : List (List Char × Block)) : String :=
  String.ofList (writeEntries 0 entries)

end Block

end MarketingForm.Yaml
