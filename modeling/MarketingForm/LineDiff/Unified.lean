import MarketingForm.LineDiff.Compact
import MarketingForm.LineDiff.Search
import MarketingForm.Text.Numeral

/-!
# Unified diffs

A unified diff shows the changes between two texts in hunks: changed lines with up to three kept
lines around them. The head of a hunk gives the lines that it covers in both texts.
-/

namespace MarketingForm.LineDiff

/-! ### Lines -/

/-- The lines of a text with their ends: a line feed, a carriage return or both. -/
def lines : List Char → List (List Char)
  | [] => []
  | '\r' :: '\n' :: r => ['\r', '\n'] :: lines r
  | c :: r =>
    if c = '\n' ∨ c = '\r' then [c] :: lines r
    else
      match r, lines r with
      | _ :: _, l :: ls => (c :: l) :: ls
      | _, ls => [c] :: ls

/-- Whether a line has an end. -/
def isEnded (line : List Char) : Bool :=
  line.getLast? == some '\n' || line.getLast? == some '\r'

/-! ### Changes -/

/-- A stretch of a script: kept lines, or lines that give way to others. Where nothing is removed or
nothing is added, `found` tells where the change was found in the other text. -/
inductive Change where
  | kept (lines : List (List Char))
  | removed (lines : List (List Char)) (found : Nat)
  | added (lines : List (List Char)) (found : Nat)
  | replaced (old new : List (List Char))
deriving DecidableEq

/-- The stretches of a script; neighbouring removals and additions belong together. -/
def changes : Script (List Char) → List Change
  | [] => []
  | ⟨kind, xs, n⟩ :: r =>
    match kind, changes r with
    | .keep, .kept ys :: cs => .kept (xs ++ ys) :: cs
    | .keep, cs => .kept xs :: cs
    | .remove, .removed ds _ :: cs => .removed (xs ++ ds) n :: cs
    | .remove, .added as _ :: cs => .replaced xs as :: cs
    | .remove, .replaced ds as :: cs => .replaced (xs ++ ds) as :: cs
    | .remove, cs => .removed xs n :: cs
    | .add, .removed ds _ :: cs => .replaced ds xs :: cs
    | .add, .added as _ :: cs => .added (xs ++ as) n :: cs
    | .add, .replaced ds as :: cs => .replaced ds (xs ++ as) :: cs
    | .add, cs => .added xs n :: cs

/-! ### Hunks -/

/-- The number of kept lines around a change. -/
def contextRadius : Nat := 3

/-- A change and how many lines of both texts come before it. -/
structure Placed where
  change : Change
  oldBefore : Nat
  newBefore : Nat
deriving DecidableEq

/-- Consecutive changes. -/
abbrev Hunk := List Placed

/-- A range of lines. -/
structure LineRange where
  start : Nat
  stop : Nat
deriving DecidableEq

namespace Placed

/-- The lines of the old text that a change covers. -/
def oldRange (p : Placed) : LineRange :=
  match p.change with
  | .kept xs => ⟨p.oldBefore, p.oldBefore + xs.length⟩
  | .removed xs _ => ⟨p.oldBefore, p.oldBefore + xs.length⟩
  | .added _ found => ⟨found, found⟩
  | .replaced ds _ => ⟨p.oldBefore, p.oldBefore + ds.length⟩

/-- The lines of the new text that a change covers. -/
def newRange (p : Placed) : LineRange :=
  match p.change with
  | .kept xs => ⟨p.newBefore, p.newBefore + xs.length⟩
  | .removed _ found => ⟨found, found⟩
  | .added xs _ => ⟨p.newBefore, p.newBefore + xs.length⟩
  | .replaced _ as => ⟨p.newBefore, p.newBefore + as.length⟩

/-- Whether a change keeps its lines. -/
def isKept (p : Placed) : Bool :=
  match p.change with
  | .kept _ => true
  | _ => false

/-- The last kept lines that a change after them shows. -/
def lastLines (p : Placed) : Placed :=
  match p.change with
  | .kept xs =>
    let skipped := xs.length - contextRadius
    ⟨.kept (xs.drop skipped), p.oldBefore + skipped, p.newBefore + skipped⟩
  | _ => p

/-- The first kept lines that a change before them shows. -/
def firstLines (p : Placed) : Placed :=
  match p.change with
  | .kept xs => { p with change := .kept (xs.take contextRadius) }
  | _ => p

/-- Whether more lines are kept than the changes around them show. -/
def isLong (p : Placed) : Bool :=
  match p.change with
  | .kept xs => decide (2 * contextRadius < xs.length)
  | _ => false

end Placed

/-- The changes of a script with their places. -/
def placedFrom (oldBefore newBefore : Nat) : List Change → List Placed
  | [] => []
  | c :: cs =>
    let (x, y) : Nat × Nat :=
      match c with
      | .kept xs => (xs.length, xs.length)
      | .removed xs _ => (xs.length, 0)
      | .added xs _ => (0, xs.length)
      | .replaced ds as => (ds.length, as.length)
    ⟨c, oldBefore, newBefore⟩ :: placedFrom (oldBefore + x) (newBefore + y) cs

/-- Divides changes into hunks inside long kept stretches; `hunk` holds what the current hunk has so
far. -/
def divideHunks (hunk : Hunk) : List Placed → List Hunk
  | [] => [hunk]
  | p :: ps =>
    if p.isLong then (hunk ++ [p.firstLines]) :: divideHunks [p.lastLines] ps
    else divideHunks (hunk ++ [p]) ps

/-- Shortens the kept lines at the start. -/
def trimStart : List Placed → List Placed
  | [] => []
  | p :: ps => p.lastLines :: ps

/-- Shortens the kept lines at the end. -/
def trimStop : List Placed → List Placed
  | [] => []
  | [p] => [p.firstLines]
  | p :: ps => p :: trimStop ps

/-- The hunks of a script: those that change anything. -/
def hunks (s : Script (List Char)) : List Hunk :=
  (divideHunks [] (trimStop (trimStart (placedFrom 0 0 (changes s))))).filter fun h =>
    !h.all Placed.isKept

/-! ### Text -/

/-- A range of lines in the head of a hunk: a single line has no count, and an empty range is given
by the line before it. -/
def LineRange.text (r : LineRange) : List Char :=
  let count := r.stop - r.start
  let number (n : Nat) : List Char := Text.numeral 10 n
  if count = 1 then number (r.start + 1)
  else if count = 0 then number r.start ++ [',', '0']
  else number (r.start + 1) ++ ',' :: number count

/-- A line with its sign; a line without an end is marked. -/
def lineText (sign : Char) (line : List Char) : List Char :=
  sign :: line ++ (if isEnded line then [] else "\n\\ No newline at end of file\n".toList)

def Change.text : Change → List Char
  | kept xs => xs.flatMap (lineText ' ')
  | removed xs _ => xs.flatMap (lineText '-')
  | added xs _ => xs.flatMap (lineText '+')
  | replaced ds as => ds.flatMap (lineText '-') ++ as.flatMap (lineText '+')

/-- The range from the start of one range to the end of another. -/
def LineRange.upTo (first last : LineRange) : LineRange := ⟨first.start, last.stop⟩

/-- A hunk under its head, which goes from the first change to the last one. -/
def hunkText (h : Hunk) : List Char :=
  match h.head?, h.getLast? with
  | some first, some last =>
    "@@ -".toList ++ (first.oldRange.upTo last.oldRange).text ++ " +".toList ++
      (first.newRange.upTo last.newRange).text ++ " @@\n".toList ++
      h.flatMap fun p => p.change.text
  | _, _ => []

/-- The unified diff of two texts under a file name; equal texts have an empty one. -/
def unified (filename old new : String) : String :=
  let hs := hunks (compact (search (lines old.toList) (lines new.toList)))
  if hs.isEmpty then ""
  else
    "--- a/" ++ filename ++ "\n+++ b/" ++ filename ++ "\n" ++ String.ofList (hs.flatMap hunkText)

end MarketingForm.LineDiff
