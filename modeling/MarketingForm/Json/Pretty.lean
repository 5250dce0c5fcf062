import MarketingForm.Json.Text

/-!
# Indented JSON

Arrays and objects are written with one item or member per line, indented by two spaces per level.
-/

namespace MarketingForm.Json

/-- A JSON value made of strings. -/
inductive Tree where
  | text (s : String)
  | array (items : List Tree)
  | object (members : List (String × Tree))
deriving Inhabited

namespace Tree

/-- A new line with its indentation. -/
def newLine (depth : Nat) : List Char := '\n' :: List.replicate (2 * depth) ' '

mutual

def write (depth : Nat) : Tree → List Char
  | text s => encodeString s.toList
  | array xs =>
    if xs.isEmpty then ['[', ']']
    else '[' :: newLine (depth + 1) ++ writeItems (depth + 1) xs ++ newLine depth ++ [']']
  | object ms =>
    if ms.isEmpty then ['\x7b', '\x7d']
    else '\x7b' :: newLine (depth + 1) ++ writeMembers (depth + 1) ms ++ newLine depth ++ ['\x7d']

def writeItems (depth : Nat) : List Tree → List Char
  | [] => []
  | x :: xs =>
    write depth x ++ (if xs.isEmpty then [] else ',' :: newLine depth ++ writeItems depth xs)

def writeMembers (depth : Nat) : List (String × Tree) → List Char
  | [] => []
  | (k, x) :: ms =>
    encodeString k.toList ++ ':' :: ' ' :: write depth x ++
      (if ms.isEmpty then [] else ',' :: newLine depth ++ writeMembers depth ms)

end

/-- The indented text of a value. -/
def pretty (t : Tree) : String := String.ofList (t.write 0)

end Tree

end MarketingForm.Json
