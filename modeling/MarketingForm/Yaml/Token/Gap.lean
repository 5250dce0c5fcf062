import MarketingForm.Yaml.Token

/-!
# Gaps inside scalars

Between two words of a plain or quoted scalar lies a gap of spaces, tabs and breaks. A gap without a
break stands for itself. In a gap with breaks all spaces and tabs are dropped; a single line feed
becomes a space, further breaks stay.
-/

namespace MarketingForm.Yaml

/-- What a gap has held so far. -/
structure Gap where
  /-- Spaces and tabs before any break. -/
  blanks : List Char
  /-- Whether there was a break. -/
  broken : Bool
  /-- The first break. -/
  leading : List Char
  /-- The breaks after the first one. -/
  trailing : List Char

namespace Gap

def empty : Gap := ⟨[], false, [], []⟩

/-- The gap after an escaped break, which stands for nothing. -/
def escapedBreak : Gap := ⟨[], true, [], []⟩

/-- The text that a gap stands for. -/
def fold (g : Gap) : List Char :=
  if g.broken then
    if g.leading.head? = some '\n' then (if g.trailing.isEmpty then [' '] else g.trailing)
    else g.leading ++ g.trailing
  else g.blanks

/-- Adds a space or a tab. -/
def addBlank (g : Gap) (c : Char) : Gap :=
  if g.broken then g else { g with blanks := g.blanks ++ [c] }

/-- Adds a break. -/
def addBreak (g : Gap) (b : List Char) : Gap :=
  if g.broken then { g with trailing := g.trailing ++ b }
  else { g with blanks := [], broken := true, leading := b }

/-- Reads a gap. After a break, a tab before column `indent` is refused. The fuel bounds the number
of characters. -/
def read (indent : Nat) (g : Gap) (c : Cursor) : Nat → Option (Gap × Cursor)
  | 0 => some (g, c)
  | fuel + 1 =>
    match c.rest with
    | [] => some (g, c)
    | d :: _ =>
      if isGap d then
        if g.broken = true ∧ c.mark.column < indent ∧ d = '\t' then none
        else read indent (g.addBlank d) (c.skip 1) fuel
      else if isBreak d then
        let b := c.readBreak
        read indent (g.addBreak b.1) b.2 fuel
      else some (g, c)

end Gap

end MarketingForm.Yaml
