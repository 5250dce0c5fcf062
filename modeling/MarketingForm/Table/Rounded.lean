import MarketingForm.Table.Width

/-!
# Tables with rounded corners

A table has a header and rows below it. Cells stand at the left of their column between two spaces;
a cell of several lines makes its row as high. Only the header is set off by a rule.
-/

namespace MarketingForm.Table

/-- The lines of a cell. -/
def cellLines : List Char → List (List Char)
  | [] => [[]]
  | c :: r =>
    if c = '\n' then [] :: cellLines r
    else
      match cellLines r with
      | l :: ls => (c :: l) :: ls
      | [] => [[c]]

/-- A row of cells, each given by its lines. -/
abbrev Row := List (List (List Char))

/-- A row of texts. -/
def rowOf (cells : List String) : Row := cells.map fun c => cellLines c.toList

def largest (ns : List Nat) : Nat := ns.foldl max 0

/-- The columns that a cell takes. -/
def cellWidth (cell : List (List Char)) : Nat := largest (cell.map width)

/-- The width of each column. -/
def columnWidths (header : Row) (rows : List Row) : List Nat :=
  rows.foldl (fun ws row => List.zipWith max ws (row.map cellWidth)) (header.map cellWidth)

/-- A line of a cell, filled up to the width of its column. -/
def paddedLine (w : Nat) (line : List Char) : List Char :=
  ' ' :: line ++ List.replicate (w - width line) ' ' ++ [' ']

/-- The lines of a row. -/
def rowLines (widths : List Nat) (row : Row) : List (List Char) :=
  (List.range (largest (row.map List.length))).map fun i =>
    let cells := List.zipWith (fun w cell => paddedLine w (cell.getD i [])) widths row
    '│' :: ['│'].intercalate cells ++ ['│']

/-- A horizontal rule with its left, inner and right corners. -/
def rule (left inner right : Char) (widths : List Nat) : List Char :=
  left :: [inner].intercalate (widths.map fun w => List.replicate (w + 2) '─') ++ [right]

/-- The lines of a table. -/
def tableLines (header : List String) (rows : List (List String)) : List (List Char) :=
  let header := rowOf header
  let rows := rows.map rowOf
  let widths := columnWidths header rows
  rule '╭' '┬' '╮' widths :: rowLines widths header ++ rule '├' '┼' '┤' widths ::
    rows.flatMap (rowLines widths) ++ [rule '╰' '┴' '╯' widths]

/-- A table as text; its last line is not ended. -/
def rounded (header : List String) (rows : List (List String)) : String :=
  String.ofList (['\n'].intercalate (tableLines header rows))

end MarketingForm.Table
