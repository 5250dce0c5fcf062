import MarketingForm.Text.Numeral
import MarketingForm.Yaml.Token.Gap

/-!
# Block scalars

A literal scalar keeps its breaks; a folded one joins lines that are not indented further. The
header may give the indentation and what becomes of the breaks at the end. Without one, the first
line that is not blank gives the indentation, and one break is kept.
-/

namespace MarketingForm.Yaml

/-- What becomes of the breaks at the end of a block scalar. -/
inductive Chomp where
  | strip
  | clip
  | keep
deriving DecidableEq

/-- The sign of a chomping indicator. -/
def chomp? (c : Char) : Option Chomp :=
  if c = '-' then some .strip else if c = '+' then some .keep else none

/-- The header of a block scalar. -/
structure BlockHeader where
  chomp : Chomp
  /-- The indentation relative to the surrounding block; zero if it is not given. -/
  increment : Nat

/-- An indentation indicator: a digit other than zero. -/
def readIncrement (c : Cursor) : Option (Nat × Cursor) :=
  match c.rest with
  | d :: _ =>
    match Text.decimalDigit? d with
    | some 0 => none
    | some n => some (n, c.skip 1)
    | none => some (0, c)
  | [] => some (0, c)

/-- Reads the indicators after `|` or `>`, in either order. -/
def readHeader (c : Cursor) : Option (BlockHeader × Cursor) :=
  match c.rest with
  | [] => some (⟨.clip, 0⟩, c)
  | d :: _ =>
    match chomp? d with
    | some chomp => (readIncrement (c.skip 1)).map fun p => (⟨chomp, p.1⟩, p.2)
    | none =>
      match readIncrement c with
      | none => none
      | some (n, c) =>
        match n, (c.rest.head?.bind chomp?) with
        | 0, _ => some (⟨.clip, 0⟩, c)
        | n, some chomp => some (⟨chomp, n⟩, c.skip 1)
        | n, none => some (⟨.clip, n⟩, c)

/-- The breaks of blank lines with the deepest indentation among them. -/
structure BlankLines where
  breaks : List Char
  deepest : Nat
  cursor : Cursor

/-- Reads blank lines, and the indentation of the line after them, up to a column if one is given. A
tab may not stand in the indentation. The fuel bounds the number of lines. -/
def blankLines (indent : Option Nat) (breaks : List Char) (deepest : Nat) (c : Cursor) :
    Nat → Option BlankLines
  | 0 => some ⟨breaks, deepest, c⟩
  | fuel + 1 =>
    let spaces := (c.rest.takeWhile (· == ' ')).length
    let c := c.skip (match indent with
      | some n => min spaces (n - c.mark.column)
      | none => spaces)
    let deepest := max deepest c.mark.column
    let indenting := indent.all fun n => decide (c.mark.column < n)
    match c.rest with
    | [] => some ⟨breaks, deepest, c⟩
    | d :: _ =>
      if indenting && d == '\t' then none
      else if isBreak d then
        let b := c.readBreak
        blankLines indent (breaks ++ b.1) deepest b.2 fuel
      else some ⟨breaks, deepest, c⟩

/-- The lines of a block scalar that have been read. -/
structure BlockLines where
  text : List Char
  /-- The break that ends the last line. -/
  leading : List Char
  /-- The breaks of the blank lines after it. -/
  trailing : List Char
  /-- Whether the last line starts with a space or a tab. -/
  indented : Bool

/-- The text with its breaks before a line that is or is not indented further. -/
def BlockLines.join (b : BlockLines) (literal indented : Bool) : List Char :=
  if !literal && b.leading.head? == some '\n' && !b.indented && !indented then
    (if b.trailing.isEmpty then b.text ++ [' '] else b.text ++ b.trailing)
  else b.text ++ b.leading ++ b.trailing

/-- Reads the lines of a block scalar. The fuel bounds their number. -/
def blockLines (literal : Bool) (indent : Nat) (b : BlockLines) (c : Cursor) :
    Nat → Option (BlockLines × Cursor)
  | 0 => some (b, c)
  | fuel + 1 =>
    if c.mark.column ≠ indent ∨ c.rest.isEmpty = true then some (b, c)
    else
      let indented := c.rest.head?.any isGap
      let (line, c) := c.span fun d => !isBreak d
      let (leading, c) := c.readBreak
      match blankLines (some indent) [] 0 c (c.rest.length + 1) with
      | none => none
      | some blank =>
        blockLines literal indent ⟨b.join literal indented ++ line, leading, blank.breaks, indented⟩
          blank.cursor fuel

/-- Reads a block scalar from its indicator on; `parent` is the indentation of the surrounding
block, or `-1` at the top. -/
def blockScalar (literal : Bool) (parent : Int) (c : Cursor) : Option (List Char × Cursor) := do
  let (header, c) ← readHeader (c.skip 1)
  let c ← c.skipLineEnd
  let given : Option Nat :=
    if header.increment = 0 then none
    else some (if 0 ≤ parent then parent.toNat + header.increment else header.increment)
  let blank ← blankLines given [] 0 c (c.rest.length + 1)
  let indent := given.getD (max blank.deepest (max (parent + 1).toNat 1))
  let (b, c) ← blockLines literal indent ⟨[], [], blank.breaks, false⟩ blank.cursor
    (blank.cursor.rest.length + 1)
  let text :=
    match header.chomp with
    | .strip => b.text
    | .clip => b.text ++ b.leading
    | .keep => b.text ++ b.leading ++ b.trailing
  some (text, c)

end MarketingForm.Yaml
