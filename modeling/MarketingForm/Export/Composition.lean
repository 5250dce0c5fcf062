import MarketingForm.Markup.Layout
import MarketingForm.Text.Blank

/-!
# Composition

A shell holds placeholders. It is cut once, from left to right, into placeholders and the characters
between them; the first occurrence of each placeholder is replaced by its segment and every later
one stays as it is. Inserted text is never searched again.
-/

namespace MarketingForm

/-- The title of a form that has none. -/
def defaultTitle : String := "Marketing Form"

/-- The places of a shell that are filled. -/
inductive Placeholder where
  | title
  | tokens
  | content
deriving DecidableEq

namespace Placeholder

def all : List Placeholder := [title, tokens, content]

/-- The text that marks the place. -/
def mark : Placeholder → String
  | title => "\x7b\x7bFORM_TITLE\x7d\x7d"
  | tokens => "\x7b\x7bDESIGN_TOKENS\x7d\x7d"
  | content => "\x7b\x7bFORM_CONTENT\x7d\x7d"

theorem mem_all (p : Placeholder) : p ∈ all := by cases p <;> decide

end Placeholder

/-- A piece of a shell. -/
inductive Piece where
  | char (c : Char)
  | place (p : Placeholder)
deriving DecidableEq

/-- The placeholder at the start of a text. -/
def placeholderAt (s : List Char) : Option Placeholder :=
  Placeholder.all.find? fun p => p.mark.toList.isPrefixOf s

/-- Cuts a shell; the first `skip` characters belong to a placeholder that has been found. -/
def piecesFrom (skip : Nat) : List Char → List Piece
  | [] => []
  | c :: r =>
    match skip with
    | n + 1 => piecesFrom n r
    | 0 =>
      match placeholderAt (c :: r) with
      | some p => .place p :: piecesFrom (p.mark.length - 1) r
      | none => .char c :: piecesFrom 0 r

/-- The pieces of a shell. -/
def pieces (shell : String) : List Piece := piecesFrom 0 shell.toList

/-- The text of pieces when `seen` have been filled before. -/
def fillPieces (segment : Placeholder → List Char) (seen : List Placeholder) :
    List Piece → List Char
  | [] => []
  | .char c :: r => c :: fillPieces segment seen r
  | .place p :: r =>
    if p ∈ seen then p.mark.toList ++ fillPieces segment seen r
    else segment p ++ fillPieces segment (p :: seen) r

/-- The placeholders of pieces, in order. -/
def places (ps : List Piece) : List Placeholder :=
  ps.filterMap fun
    | .place p => some p
    | .char _ => none

/-- The placeholders that occur again after their first occurrence, in the order of their second
occurrences. -/
def repeated (seen dup : List Placeholder) : List Placeholder → List Placeholder
  | [] => dup.reverse
  | p :: r =>
    if p ∈ seen then (if p ∈ dup then repeated seen dup r else repeated seen (p :: dup) r)
    else repeated (p :: seen) dup r

/-- A composed document with the placeholders that the shell lacks and those that it repeats. -/
structure Composition where
  document : String
  missing : List Placeholder
  duplicates : List Placeholder
deriving DecidableEq

/-- The section around all fragments: one full-width column. -/
def contentBlock (fragments : List Markup) : Markup :=
  let column := Element.new "div"
    |>.cls "columnContainer"
    |>.attr "data-container" "true"
    |>.attr "data-container-width" "100"
    |>.attr "style" "width: 600px;"
  let column := fragments.foldl Element.embed column
  Element.new "div"
    |>.attr "data-section" "true"
    |>.cls "emptyContainer columns-equal-class wrap-section"
    |>.attr "style" "padding: 0px; display: flex;"
    |>.child column
    |>.render

/-- The title, or the default for a blank one. -/
def titleOrDefault (title : String) : String :=
  if Text.allBlank title then defaultTitle else title

/-- Fills a shell. -/
def compose (shell title css : String) (fragments : List Markup) : Composition :=
  let ps := pieces shell
  let segment : Placeholder → List Char
    | .title => (escape (titleOrDefault title)).toList
    | .tokens => css.toList
    | .content => (contentBlock fragments).text.toList
  { document := String.ofList (fillPieces segment [] ps)
    missing := Placeholder.all.filter fun p => !(places ps).contains p
    duplicates := repeated [] [] (places ps) }

end MarketingForm
