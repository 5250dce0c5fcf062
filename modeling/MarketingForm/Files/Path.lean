/-!
# Paths

A path is a text whose segments are separated by slashes. Empty segments and single dots after the
first segment mean nothing; a path that starts with a slash is absolute.
-/

namespace MarketingForm.Files

/-- A segment of a path. -/
abbrev Segment := List Char

/-- The segments of a path, the empty ones included. -/
def segments : List Char → List Segment
  | [] => [[]]
  | c :: r =>
    if c = '/' then [] :: segments r
    else
      match segments r with
      | s :: ss => (c :: s) :: ss
      | [] => [[c]]

/-- The path of some segments. -/
def joined (ss : List Segment) : List Char := ['/'].intercalate ss

/-- Whether a segment that is not the first one means nothing. -/
def isIdle (s : Segment) : Bool := s == [] || s == ['.']

/-- The segments without the idle ones at the end. -/
def trimIdle (ss : List Segment) : List Segment := (ss.reverse.dropWhile isIdle).reverse

/-- A path cut before its last segment. -/
structure Cut where
  /-- What stands before the last segment. -/
  parent : List Char
  last : Segment

/-- Cuts a path before its last segment; the empty path and the root cannot be cut. -/
def cut? (path : List Char) : Option Cut :=
  match segments path with
  | [] => none
  | first :: rest =>
    let rest := trimIdle rest
    match rest.getLast? with
    | none => if first = [] then none else some ⟨[], first⟩
    | some last =>
      let before := first :: trimIdle rest.dropLast
      some ⟨if before = [[]] then ['/'] else joined before, last⟩

/-- The path of the directory that holds a path. -/
def parent? (path : String) : Option String :=
  (cut? path.toList).map fun c => String.ofList c.parent

/-- The name at the end of a path; dots are no names. -/
def fileName? (path : String) : Option String :=
  match cut? path.toList with
  | some c => if c.last = ['.'] ∨ c.last = ['.', '.'] then none else some (String.ofList c.last)
  | none => none

/-- A path inside a directory; an absolute path stays as it is. -/
def join (dir path : String) : String :=
  if path.toList.head? = some '/' ∨ dir = "" then path
  else if dir.toList.getLast? = some '/' then dir ++ path
  else dir ++ "/" ++ path

/-- The path with another name at its end. -/
def withFileName (path name : String) : String :=
  match fileName? path with
  | some _ => join ((parent? path).getD "") name
  | none => join path name

end MarketingForm.Files
