import MarketingForm.Yaml.Token.Gap

/-!
# Plain scalars

A plain scalar ends before a comment, before a colon that ends a word, at a line that is indented
too little, at a document marker and, inside flow collections, at a flow indicator.
-/

namespace MarketingForm.Yaml

/-- The indicators of flow collections. -/
def isFlowIndicator (c : Char) : Bool :=
  c == ',' || c == '[' || c == ']' || c == '\x7b' || c == '\x7d'

/-- How the characters of a word go on. -/
inductive WordEnd where
  /-- The word ends and so does the scalar. -/
  | scalar
  /-- The word ends at a gap or at the end of the text. -/
  | gap
  /-- A colon stands where none may. -/
  | misplacedColon
deriving DecidableEq

/-- Splits off the characters of one word. -/
def plainWord (flow : Bool) : List Char → List Char × WordEnd
  | [] => ([], .gap)
  | c :: r =>
    if isGap c || isBreak c then ([], .gap)
    else if flow && c == ':' && r.head?.any fun d => isFlowIndicator d || d == '?' then
      ([], .misplacedColon)
    else if (c == ':' && endsWord r) || (flow && isFlowIndicator c) then ([], .scalar)
    else
      let w := plainWord flow r
      (c :: w.1, w.2)

/-- A plain scalar that has been read. -/
structure PlainScalar where
  text : List Char
  stop : Mark
  /-- Whether a break follows the last word. -/
  broken : Bool
  cursor : Cursor

/-- Reads the words of a plain scalar; `gap` is what lies before the next one. The fuel bounds their
number. -/
def plainFrom (flow : Bool) (indent : Nat) (text : List Char) (stop : Mark) (gap : Gap)
    (c : Cursor) : Nat → Option PlainScalar
  | 0 => some ⟨text, stop, gap.broken, c⟩
  | fuel + 1 =>
    if c.atDocumentMarker || c.rest.head? == some '#' then some ⟨text, stop, gap.broken, c⟩
    else
      let (word, how) := plainWord flow c.rest
      let c := c.skip word.length
      let (text, stop, gap) :=
        if word.isEmpty then (text, stop, gap) else (text ++ gap.fold ++ word, c.mark, Gap.empty)
      match how with
      | .misplacedColon => none
      | .scalar => some ⟨text, stop, gap.broken, c⟩
      | .gap =>
        if c.rest.isEmpty then some ⟨text, stop, gap.broken, c⟩
        else
          match Gap.read indent gap c (c.rest.length + 1) with
          | none => none
          | some (gap, c) =>
            if !flow && c.mark.column < indent then some ⟨text, stop, gap.broken, c⟩
            else plainFrom flow indent text stop gap c fuel

/-- Reads a plain scalar inside a block that is indented to `indent - 1`. -/
def plainScalar (flow : Bool) (indent : Nat) (c : Cursor) : Option PlainScalar :=
  plainFrom flow indent [] c.mark .empty c (c.rest.length + 1)

end MarketingForm.Yaml
