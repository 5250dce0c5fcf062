/-!
# Places in a YAML text

A cursor is a mark (line, column and index, all counted from zero in characters) with the text that
follows it. A line ends at a line feed, a carriage return, both together, a next-line character or
one of the two Unicode separators; the separators keep their identity when a break is read, all
others become line feeds.
-/

namespace MarketingForm.Yaml

/-- A place in a text. -/
structure Mark where
  line : Nat
  column : Nat
  index : Nat
deriving DecidableEq, Inhabited

namespace Mark

def start : Mark := ⟨0, 0, 0⟩

/-- The place some characters further on the same line. -/
def advance (m : Mark) (n : Nat) : Mark := ⟨m.line, m.column + n, m.index + n⟩

/-- The start of the next line after a break of some characters. -/
def nextLine (m : Mark) (n : Nat) : Mark := ⟨m.line + 1, 0, m.index + n⟩

end Mark

/-- The characters that may stand in a YAML text. -/
def isAllowed (c : Char) : Bool :=
  let n := c.toNat
  n == 0x09 || n == 0x0A || n == 0x0D || (0x20 ≤ n && n ≤ 0x7E) || n == 0x85 ||
    (0xA0 ≤ n && n ≤ 0xFFFD) || 0x10000 ≤ n

def isBreak (c : Char) : Bool :=
  c == '\n' || c == '\r' || c == '\u0085' || c == '\u2028' || c == '\u2029'

/-- A space or a tab. -/
def isGap (c : Char) : Bool := c == ' ' || c == '\t'

/-- Letters, digits, hyphen and underscore of ASCII. -/
def isWordChar (c : Char) : Bool := c.isAlphanum || c == '-' || c == '_'

/-- Whether a text starts with a space, a tab or a break, or is at its end. -/
def endsWord : List Char → Bool
  | [] => true
  | c :: _ => isGap c || isBreak c

/-- Whether a text is at its end or at the end of a line. -/
def endsLine : List Char → Bool
  | [] => true
  | c :: _ => isBreak c

/-- A mark with the text that follows it. -/
structure Cursor where
  mark : Mark
  rest : List Char
deriving Inhabited

namespace Cursor

/-- The cursor some characters further on the same line. -/
def skip (c : Cursor) (n : Nat) : Cursor := ⟨c.mark.advance n, c.rest.drop n⟩

/-- Splits off the characters of one sort; none of them is a break. -/
def span (c : Cursor) (p : Char → Bool) : List Char × Cursor :=
  let t := c.rest.takeWhile p
  (t, ⟨c.mark.advance t.length, c.rest.drop t.length⟩)

/-- Reads a break as the text it stands for; nothing at any other character. -/
def readBreak (c : Cursor) : List Char × Cursor :=
  match c.rest with
  | '\r' :: '\n' :: r => (['\n'], ⟨c.mark.nextLine 2, r⟩)
  | '\u2028' :: r => (['\u2028'], ⟨c.mark.nextLine 1, r⟩)
  | '\u2029' :: r => (['\u2029'], ⟨c.mark.nextLine 1, r⟩)
  | b :: r => if isBreak b then (['\n'], ⟨c.mark.nextLine 1, r⟩) else ([], c)
  | [] => ([], c)

/-- Whether a line starts here with `---` or `...` on its own. -/
def atDocumentMarker (c : Cursor) : Bool :=
  c.mark.column == 0 &&
    match c.rest with
    | '-' :: '-' :: '-' :: r => endsWord r
    | '.' :: '.' :: '.' :: r => endsWord r
    | _ => false

/-- Skips spaces, tabs and a comment up to the end of the line; nothing else may stand there. -/
def skipLineEnd (c : Cursor) : Option Cursor :=
  let c := (c.span isGap).2
  let c :=
    match c.rest with
    | '#' :: _ => (c.span fun d => !isBreak d).2
    | _ => c
  if endsLine c.rest then some c.readBreak.2 else none

end Cursor

end MarketingForm.Yaml
