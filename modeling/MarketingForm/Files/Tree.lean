import MarketingForm.Files.Path

/-!
# Directory trees

A tree is a file with its bytes or a directory with named entries. `Tree.get?` is the view of a
tree: what lies at a place, given by the names that lead to it. `Tree.put` and `Tree.erase` change
one place and keep every other one.
-/

namespace MarketingForm.Files

/-- A file or a directory. -/
inductive Tree where
  | file (content : ByteArray)
  | dir (entries : List (Segment × Tree))
deriving Inhabited

/-- The names that lead from the root of a tree to a place in it. -/
abbrev Location := List Segment

namespace Tree

def empty : Tree := dir []

def isDir : Tree → Bool
  | dir _ => true
  | file _ => false

/-- Gives a name in a directory its entry. -/
def setEntry (name : Segment) (t : Tree) : List (Segment × Tree) → List (Segment × Tree)
  | [] => [(name, t)]
  | e :: r => if e.1 = name then (name, t) :: r else e :: setEntry name t r

/-- What lies at a place. -/
def get? : Tree → Location → Option Tree
  | t, [] => some t
  | file _, _ :: _ => none
  | dir es, n :: r =>
    match es.lookup n with
    | some t => t.get? r
    | none => none

/-- Puts a tree at a place, if the directory around it is there. -/
def put : Tree → Location → Tree → Tree
  | _, [], x => x
  | file c, _ :: _, _ => file c
  | dir es, [n], x => dir (setEntry n x es)
  | dir es, n :: m :: r, x =>
    match es.lookup n with
    | some t => dir (setEntry n (t.put (m :: r) x) es)
    | none => dir es

/-- Takes away what lies at a place. -/
def erase : Tree → Location → Tree
  | t, [] => t
  | file c, _ :: _ => file c
  | dir es, [n] => dir (es.filter fun e => e.1 != n)
  | dir es, n :: m :: r =>
    match es.lookup n with
    | some t => dir (setEntry n (t.erase (m :: r)) es)
    | none => dir es

mutual

/-- The places below a tree that lies at a path, in order: directories end in a slash and have no
content of their own. -/
def listing (path : List Char) : Tree → List (List Char × Option ByteArray)
  | file c => [(path, some c)]
  | dir es => (path ++ ['/'], none) :: listEntries (path ++ ['/']) es

def listEntries (path : List Char) : List (Segment × Tree) → List (List Char × Option ByteArray)
  | [] => []
  | (n, t) :: r => listing (path ++ n) t ++ listEntries path r

end

/-- All places in a tree but the root itself. -/
def contents : Tree → List (List Char × Option ByteArray)
  | file _ => []
  | dir es => listEntries [] es

end Tree

end MarketingForm.Files
