import MarketingForm.Text.Numeral
import MarketingForm.Yaml.Token

/-!
# Anchors, tags and directives
-/

namespace MarketingForm.Yaml

/-- Reads the name of an anchor or alias after its indicator. -/
def anchorName (c : Cursor) : Option (List Char × Cursor) :=
  let (name, c) := c.span isWordChar
  let ends :=
    match c.rest with
    | [] => true
    | d :: _ => isGap d || isBreak d || "?:,]\x7d%@`".toList.contains d
  if name.isEmpty || !ends then none else some (name, c)

/-! ### Tags -/

/-- The octet of an escape `%xx`. -/
def escapedOctet : List Char → Option (Nat × List Char)
  | '%' :: a :: b :: r => (Text.readNumeral? 16 [a, b]).map fun n => (n, r)
  | _ => none

/-- The further octets of a character: each gives six bits. -/
def moreOctets (code : Nat) (s : List Char) : Nat → Option (Nat × List Char)
  | 0 => some (code, s)
  | k + 1 =>
    match escapedOctet s with
    | some (n, r) => if n / 64 = 2 then moreOctets (code * 64 + n % 64) r k else none
    | none => none

/-- Reads a character that is written as escaped octets. -/
def escapedChar (s : List Char) : Option (Char × List Char) := do
  let (n, r) ← escapedOctet s
  let (code, k) ←
    if n < 0x80 then some (n, 0)
    else if n / 32 = 6 then some (n % 32, 1)
    else if n / 16 = 14 then some (n % 16, 2)
    else if n / 8 = 30 then some (n % 8, 3)
    else none
  let (code, r) ← moreOctets code r k
  some (Char.ofNat code, r)

/-- Characters of a tag; inside angle brackets flow indicators may stand too. -/
def isTagChar (verbatim : Bool) (c : Char) : Bool :=
  isWordChar c || ";/?:@&=+$.!~*'()".toList.contains c ||
    (verbatim && (c == ',' || c == '[' || c == ']'))

/-- Reads the characters of a tag. The fuel bounds their number. -/
def tagText (verbatim : Bool) (c : Cursor) : Nat → Option (List Char × Cursor)
  | 0 => some ([], c)
  | fuel + 1 =>
    match c.rest with
    | [] => some ([], c)
    | d :: r =>
      if d = '%' then
        match escapedChar (d :: r) with
        | none => none
        | some (e, r') =>
          (tagText verbatim ⟨c.mark.advance ((d :: r).length - r'.length), r'⟩ fuel).map fun p =>
            (e :: p.1, p.2)
      else if isTagChar verbatim d then
        (tagText verbatim (c.skip 1) fuel).map fun p => (d :: p.1, p.2)
      else some ([], c)

/-- Reads a tag handle: `!`, `!!` or `!name!`. -/
def tagHandle (c : Cursor) : Option (List Char × Cursor) :=
  match c.rest with
  | '!' :: _ =>
    let (name, c) := (c.skip 1).span isWordChar
    match c.rest with
    | '!' :: _ => some ('!' :: name ++ ['!'], c.skip 1)
    | _ => some ('!' :: name, c)
  | _ => none

/-- Whether a handle is closed by a second mark. -/
def isClosedHandle (handle : List Char) : Bool :=
  2 ≤ handle.length && handle.getLast? == some '!'

/-- Reads a tag: its handle and its suffix. A tag without a closed handle is local: all of it but
the mark is the suffix. The lone mark has no handle. -/
def tagParts (c : Cursor) : Option ((List Char × List Char) × Cursor) :=
  match c.rest with
  | '!' :: '<' :: _ => do
    let c := c.skip 2
    let (suffix, c) ← tagText true c (c.rest.length + 1)
    match c.rest with
    | '>' :: _ => if suffix.isEmpty then none else some (([], suffix), c.skip 1)
    | _ => none
  | _ => do
    let (handle, c) ← tagHandle c
    let (text, c) ← tagText false c (c.rest.length + 1)
    if isClosedHandle handle then
      if text.isEmpty then none else some ((handle, text), c)
    else
      let suffix := handle.drop 1 ++ text
      some (if suffix.isEmpty then (([], ['!']), c) else ((['!'], suffix), c))

/-- Reads a tag and checks what ends it. -/
def tagToken (flow : Bool) (c : Cursor) : Option (TokenKind × Cursor) := do
  let ((handle, suffix), c) ← tagParts c
  let ends := endsWord c.rest || (flow && c.rest.head? == some ',')
  if ends then some (.tag handle suffix, c) else none

/-! ### Directives -/

/-- Reads one of the two numbers of a version. -/
def versionNumber (c : Cursor) : Option (Nat × Cursor) :=
  let (ds, c) := c.span Char.isDigit
  if 9 < ds.length then none else (Text.readNumeral? 10 ds).map fun n => (n, c)

/-- Reads the value of a version directive. -/
def versionValue (c : Cursor) : Option (TokenKind × Cursor) := do
  let (major, c) ← versionNumber (c.span isGap).2
  match c.rest with
  | '.' :: _ =>
    let (minor, c) ← versionNumber (c.skip 1)
    some (.version major minor, c)
  | _ => none

/-- Reads the value of a tag directive. -/
def tagDirectiveValue (c : Cursor) : Option (TokenKind × Cursor) := do
  let (handle, c) ← tagHandle (c.span isGap).2
  if handle ≠ ['!'] ∧ isClosedHandle handle = false then none
  else if !c.rest.head?.any isGap then none
  else
    let c := (c.span isGap).2
    let (lead, c) ← tagText true c (c.rest.length + 1)
    if lead.isEmpty || !endsWord c.rest then none else some (.tagDirective handle lead, c)

/-- Reads a directive from its indicator on, up to the end of its line. -/
def directive (c : Cursor) : Option (Token × Cursor) := do
  let start := c.mark
  let (name, c) := (c.skip 1).span isWordChar
  if name.isEmpty || !endsWord c.rest then none
  else
    let (kind, c) ←
      if name = "YAML".toList then versionValue c
      else if name = "TAG".toList then tagDirectiveValue c
      else none
    let stop := c.mark
    let c ← c.skipLineEnd
    some (⟨kind, start, stop⟩, c)

end MarketingForm.Yaml
