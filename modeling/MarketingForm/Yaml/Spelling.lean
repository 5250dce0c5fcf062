import MarketingForm.Text.Numeral
import MarketingForm.Text.Utf8
import MarketingForm.Yaml.Cursor
import MarketingForm.Yaml.Meaning
import MarketingForm.Yaml.Token

/-!
# Spelling texts as scalars

A text is written in the plainest style that reads back as the same text. A text with line feeds is
written as a literal block, one that would be taken for another type in single quotes, and one that
needs escapes in double quotes.
-/

namespace MarketingForm.Yaml

/-! ### What a text contains -/

/-- The characters that need no escape. -/
def isPrintable (c : Char) : Bool :=
  let n := c.toNat
  n == 0x0A || (0x20 ≤ n && n ≤ 0x7E) || (0xA0 ≤ n && n != 0xFEFF && n != 0xFFFE && n != 0xFFFF)

/-- Whether two neighbours are of two sorts. -/
def hasPair (p q : Char → Bool) : List Char → Bool
  | c :: d :: r => (p c && q d) || hasPair p q (d :: r)
  | _ => false

def isSpace (c : Char) : Bool := c == ' '

/-- Whether a space stands before a break. -/
def hasSpaceBeforeBreak (s : List Char) : Bool := hasPair isSpace isBreak s

/-- Whether a space stands after a break. -/
def hasSpaceAfterBreak (s : List Char) : Bool := hasPair isBreak isSpace s

/-- Whether a colon ends a word. -/
def hasKeyMark : List Char → Bool
  | [] => false
  | c :: r => (c == ':' && endsWord r) || hasKeyMark r

/-- Whether a text holds or starts with what means something in a plain scalar. -/
def hasIndicator (s : List Char) : Bool :=
  let atStart :=
    match s with
    | '-' :: '-' :: '-' :: _ => true
    | '.' :: '.' :: '.' :: _ => true
    | c :: r =>
      "#,[]\x7b\x7d&*!|>'\"%@`".toList.contains c || ((c == '?' || c == '-') && endsWord r)
    | [] => false
  atStart || hasKeyMark s || hasPair (fun c => isGap c || isBreak c) (· == '#') s

/-- Whether a text starts or ends with a character of some sort. -/
def isEdged (p : Char → Bool) (s : List Char) : Bool :=
  s.head?.any p || s.getLast?.any p

/-- Whether a text can be written in double quotes only. -/
def needsEscapes (s : List Char) : Bool := !s.all isPrintable || hasSpaceBeforeBreak s

def allowsPlain (s : List Char) : Bool :=
  !(needsEscapes s || s.any isBreak || isEdged isSpace s || hasIndicator s)

def allowsSingle (s : List Char) : Bool := !(needsEscapes s || hasSpaceAfterBreak s)

def allowsLiteral (s : List Char) : Bool :=
  !(s.isEmpty || needsEscapes s || s.getLast?.any isSpace)

/-- Whether a plain scalar with this text would read back as this text. -/
def readsAsText (s : List Char) : Bool :=
  match meaning s with
  | .text _ => !isZeroPadded s
  | _ => false

/-- The style in which a text is written. -/
def styleOf (s : List Char) : Style :=
  if s.contains '\n' then (if allowsLiteral s then .literal else .double)
  else if readsAsText s && allowsPlain s then .plain
  else if allowsSingle s then .single
  else .double

/-! ### Styles -/

/-- A text in single quotes. A break is followed by the indentation of the next line. -/
def singleBody (indent : Nat) (fresh : Bool) : List Char → List Char
  | [] => if fresh then List.replicate indent ' ' else []
  | c :: r =>
    if isBreak c then c :: singleBody indent true r
    else
      (if fresh then List.replicate indent ' ' else []) ++
        (if c = '\'' then ['\'', '\''] else [c]) ++ singleBody indent false r

/-- A code point in hexadecimal digits. -/
def hexDigits (width : Nat) (n : Nat) : List Char :=
  let ds := (Text.numeral 16 n).map Char.toUpper
  List.replicate (width - ds.length) '0' ++ ds

/-- The escape of a character. -/
def escapeChar (c : Char) : List Char :=
  match c with
  | '\x00' => ['\\', '0']
  | '\x07' => ['\\', 'a']
  | '\x08' => ['\\', 'b']
  | '\t' => ['\\', 't']
  | '\n' => ['\\', 'n']
  | '\x0b' => ['\\', 'v']
  | '\x0c' => ['\\', 'f']
  | '\r' => ['\\', 'r']
  | '\x1b' => ['\\', 'e']
  | '"' => ['\\', '"']
  | '\\' => ['\\', '\\']
  | '\u0085' => ['\\', 'N']
  | '\u2028' => ['\\', 'L']
  | '\u2029' => ['\\', 'P']
  | c =>
    let n := c.toNat
    if n ≤ 0xFF then '\\' :: 'x' :: hexDigits 2 n
    else if n ≤ 0xFFFF then '\\' :: 'u' :: hexDigits 4 n
    else '\\' :: 'U' :: hexDigits 8 n

/-- A character in double quotes. -/
def doubleChar (c : Char) : List Char :=
  if !isPrintable c || isBreak c || c == '"' || c == '\\' then escapeChar c else [c]

/-- The indicators of a literal block: the indentation if the text starts with a blank, and what
becomes of the breaks at its end. -/
def literalHeader (s : List Char) : List Char :=
  let hint := if s.head?.any fun c => isSpace c || isBreak c then ['2'] else []
  let chomp :=
    match s.reverse with
    | [] => ['-']
    | [c] => if isBreak c then ['+'] else ['-']
    | c :: d :: _ => if !isBreak c then ['-'] else if isBreak d then ['+'] else []
  '|' :: hint ++ chomp

/-- Lines with an indentation; blank lines have none. -/
def indentLines (indent : Nat) (fresh : Bool) : List Char → List Char
  | [] => []
  | c :: r =>
    if isBreak c then c :: indentLines indent true r
    else (if fresh then List.replicate indent ' ' else []) ++ c :: indentLines indent false r

/-- The spelling of a text inside a block that is indented by `indent`. -/
def spell (indent : Nat) (s : List Char) : List Char :=
  match styleOf s with
  | .plain => s
  | .single => '\'' :: singleBody (indent + 2) false s ++ ['\'']
  | .double => '"' :: s.flatMap doubleChar ++ ['"']
  | .literal => literalHeader s ++ '\n' :: indentLines (indent + 2) true s
  | .folded => s

/-! ### Keys -/

/-- The most bytes of a key that is written without a mark. -/
def simpleKeyLimit : Nat := 128

/-- Whether a key is written without a mark: on one line, and not too long. -/
def isSimpleKey (s : List Char) : Bool :=
  !s.any isBreak && decide (Text.utf8Length s ≤ simpleKeyLimit)

end MarketingForm.Yaml
