import MarketingForm.Yaml.Token.Block
import MarketingForm.Yaml.Token.Plain
import MarketingForm.Yaml.Token.Quoted
import MarketingForm.Yaml.Token.Tag

/-!
# Cutting a text into tokens

A token that is followed by a colon turns out to be a key only afterwards: the scanner remembers
where a key might start, one place per flow level, and puts the key token in front when the colon
comes. A token is released only when no key can start at it any more, so a fault in the text hides
the tokens that are still held back.

In block context indentation opens and closes collections. A key must lie on one line and within
1024 characters; it is required where only a key can stand.
-/

namespace MarketingForm.Yaml

/-- A token that may turn out to start a key. -/
structure KeyPlace where
  /-- The number of the token among all tokens. -/
  number : Nat
  mark : Mark
  /-- Nothing but a key can stand there. -/
  required : Bool
deriving DecidableEq

/-- The state of the scanner. -/
structure Scanner where
  cursor : Cursor
  /-- The possible key of the current flow level. -/
  keyPlace : Option KeyPlace
  /-- The possible keys of the enclosing flow levels, innermost first; one per level. -/
  outer : List (Option KeyPlace)
  /-- The indentation of the current block collection. -/
  indent : Int
  /-- The indentations of the enclosing block collections, innermost first. -/
  indents : List Int
  /-- Whether a key may start at the next token. -/
  keyAllowed : Bool
  /-- The tokens that are held back. -/
  held : List Token
  /-- How many tokens have been released. -/
  released : Nat
  finished : Bool

namespace Scanner

def start (text : List Char) : Scanner :=
  ⟨⟨.start, text⟩, none, [], -1, [], true, [], 0, false⟩

/-- Whether the scanner is inside a flow collection. -/
def inFlow (s : Scanner) : Bool := !s.outer.isEmpty

def mark (s : Scanner) : Mark := s.cursor.mark

/-- Appends a token. -/
def push (s : Scanner) (kind : TokenKind) (start stop : Mark) : Scanner :=
  { s with held := s.held ++ [⟨kind, start, stop⟩] }

/-- Inserts a token before the one with a number. -/
def insertAt (s : Scanner) (number : Nat) (t : Token) : Scanner :=
  let i := number - s.released
  { s with held := s.held.take i ++ t :: s.held.drop i }

/-! ### Keys -/

/-- Whether a possible key has run past its line or its length. -/
def isStale (m : Mark) (k : KeyPlace) : Bool :=
  k.mark.line < m.line || k.mark.index + 1024 < m.index

/-- Gives up a possible key that has run too far; a required one must not. -/
def dropStale (m : Mark) : Option KeyPlace → Option (Option KeyPlace)
  | none => some none
  | some k => if isStale m k then (if k.required then none else some none) else some (some k)

/-- Gives up the possible keys that have run too far. -/
def dropStaleKeys (s : Scanner) : Option Scanner := do
  let outer ← s.outer.mapM (dropStale s.mark)
  let keyPlace ← dropStale s.mark s.keyPlace
  some { s with keyPlace := keyPlace, outer := outer }

/-- Gives up the possible key of the current level; a required one must not. -/
def removeKey (s : Scanner) : Option Scanner :=
  match s.keyPlace with
  | some k => if k.required then none else some { s with keyPlace := none }
  | none => some s

/-- Notes that a key may start at the next token. -/
def saveKey (s : Scanner) : Option Scanner :=
  if s.keyAllowed then
    let required := !s.inFlow && s.indent == (s.mark.column : Int)
    s.removeKey.map fun s =>
      { s with keyPlace := some ⟨s.released + s.held.length, s.mark, required⟩ }
  else some s

/-- Whether a key may still start at the first token that is held back. -/
def holdsHead (s : Scanner) : Bool :=
  (s.keyPlace :: s.outer).any fun
    | some k => k.number == s.released
    | none => false

/-! ### Indentation -/

/-- Opens a block collection at a column that lies deeper than the current one; its token goes
before the token with a number, or to the end. -/
def openBlock (s : Scanner) (column : Nat) (number : Option Nat) (kind : TokenKind) (m : Mark) :
    Scanner :=
  if s.inFlow || (column : Int) ≤ s.indent then s
  else
    let s := { s with indents := s.indent :: s.indents, indent := column }
    match number with
    | some n => s.insertAt n ⟨kind, m, m⟩
    | none => s.push kind m m

/-- Ends the block collections that lie deeper than a column. -/
def closeDeeper (column : Int) (m : Mark) (indent : Int) : List Int → List Token × Int × List Int
  | [] => ([], indent, [])
  | outer :: r =>
    if column < indent then
      let (ts, rest) := closeDeeper column m outer r
      (⟨.blockEnd, m, m⟩ :: ts, rest)
    else ([], indent, outer :: r)

/-- Ends the block collections that lie deeper than a column, outside flow collections. -/
def closeBlocks (s : Scanner) (column : Int) : Scanner :=
  if s.inFlow then s
  else
    let (ts, indent, indents) := closeDeeper column s.mark s.indent s.indents
    { s with held := s.held ++ ts, indent := indent, indents := indents }

/-! ### Tokens -/

/-- Skips to the next token: over spaces, comments and breaks, and over tabs where no key may start.
A byte order mark may start a line; it takes a column. Outside flow collections a key may start on
each new line. The fuel bounds the number of lines. -/
def skipFrom (flow keyAllowed : Bool) (c : Cursor) : Nat → Bool × Cursor
  | 0 => (keyAllowed, c)
  | fuel + 1 =>
    let c := if c.mark.column = 0 ∧ c.rest.head? = some '\uFEFF' then c.skip 1 else c
    let c := (c.span fun d => d == ' ' || ((flow || !keyAllowed) && d == '\t')).2
    let c := if c.rest.head? = some '#' then (c.span fun d => !isBreak d).2 else c
    if c.rest.head?.any isBreak then
      skipFrom flow (keyAllowed || !flow) c.readBreak.2 fuel
    else (keyAllowed, c)

def skipToToken (s : Scanner) : Scanner :=
  let (keyAllowed, c) := skipFrom s.inFlow s.keyAllowed s.cursor (s.cursor.rest.length + 1)
  { s with cursor := c, keyAllowed := keyAllowed }

/-- Appends the token of an indicator of some characters. -/
def indicator (s : Scanner) (kind : TokenKind) (n : Nat) : Scanner :=
  let c := s.cursor.skip n
  { s.push kind s.mark c.mark with cursor := c }

/-- Ends the text: on a new line, with all blocks closed. -/
def endText (s : Scanner) : Option Scanner :=
  let m := s.mark
  let m := if m.column = 0 then m else ⟨m.line + 1, 0, m.index⟩
  let s := { s with cursor := ⟨m, []⟩ }
  (s.closeBlocks (-1)).removeKey.map fun s =>
    { s.push .streamEnd m m with keyAllowed := false, finished := true }

/-- A directive or document marker ends all blocks. -/
def leaveBlocks (s : Scanner) : Option Scanner :=
  (s.closeBlocks (-1)).removeKey.map fun s => { s with keyAllowed := false }

def scanDirective (s : Scanner) : Option Scanner := do
  let s ← s.leaveBlocks
  let (t, c) ← directive s.cursor
  some { s with cursor := c, held := s.held ++ [t] }

def scanMarker (s : Scanner) (kind : TokenKind) : Option Scanner := do
  let s ← s.leaveBlocks
  some (s.indicator kind 3)

def openFlow (s : Scanner) (kind : TokenKind) : Option Scanner := do
  let s ← s.saveKey
  let s := s.indicator kind 1
  some { s with outer := s.keyPlace :: s.outer, keyPlace := none, keyAllowed := true }

def closeFlow (s : Scanner) (kind : TokenKind) : Option Scanner := do
  let s ← s.removeKey
  let s :=
    match s.outer with
    | k :: r => { s with keyPlace := k, outer := r }
    | [] => s
  some ({ s with keyAllowed := false }.indicator kind 1)

def scanFlowEntry (s : Scanner) : Option Scanner := do
  let s ← s.removeKey
  some ({ s with keyAllowed := true }.indicator .flowEntry 1)

def scanBlockEntry (s : Scanner) : Option Scanner := do
  let s ←
    if s.inFlow then some s
    else if s.keyAllowed then some (s.openBlock s.mark.column none .blockSequenceStart s.mark)
    else none
  let s ← s.removeKey
  some ({ s with keyAllowed := true }.indicator .blockEntry 1)

/-- A question mark before a key, outside flow collections also opens a mapping. -/
def scanKey (s : Scanner) : Option Scanner := do
  let s ←
    if s.inFlow then some s
    else if s.keyAllowed then some (s.openBlock s.mark.column none .blockMappingStart s.mark)
    else none
  let s ← s.removeKey
  some ({ s with keyAllowed := !s.inFlow }.indicator .key 1)

/-- A colon: if a key may have started before it, the key's token is put in front. -/
def scanValue (s : Scanner) : Option Scanner :=
  match s.keyPlace with
  | some k =>
    let s := s.insertAt k.number ⟨.key, k.mark, k.mark⟩
    let s := s.openBlock k.mark.column (some k.number) .blockMappingStart k.mark
    some ({ s with keyPlace := none, keyAllowed := false }.indicator .value 1)
  | none => do
    let s ←
      if s.inFlow then some s
      else if s.keyAllowed then some (s.openBlock s.mark.column none .blockMappingStart s.mark)
      else none
    some ({ s with keyAllowed := !s.inFlow }.indicator .value 1)

/-- Appends a token that can start a key. -/
def scanInline (s : Scanner) (read : Cursor → Option (TokenKind × Cursor)) : Option Scanner := do
  let s ← s.saveKey
  let (kind, c) ← read s.cursor
  some { s.push kind s.mark c.mark with cursor := c, keyAllowed := false }

def scanBlockScalar (s : Scanner) (literal : Bool) : Option Scanner := do
  let s ← s.removeKey
  let (text, c) ← blockScalar literal s.indent s.cursor
  let s := s.push (.scalar text (if literal then .literal else .folded)) s.mark c.mark
  some { s with cursor := c, keyAllowed := true }

/-- A plain scalar that ends at a line break leaves room for a key on the next line. -/
def scanPlain (s : Scanner) : Option Scanner := do
  let s ← s.saveKey
  let p ← plainScalar s.inFlow (s.indent + 1).toNat s.cursor
  some { s.push (.scalar p.text .plain) s.mark p.stop with
    cursor := p.cursor, keyAllowed := p.broken }

/-- Whether a character may start a plain scalar whatever follows it. -/
def startsPlain (c : Char) : Bool :=
  !(isGap c || isBreak c || "-?:,[]\x7b\x7d#&*!|>'\"%@`".toList.contains c)

/-- Scans one token; the text goes on here. -/
def scanToken (s : Scanner) (c : Char) (r : List Char) : Option Scanner :=
  let atWordEnd := endsWord r
  if s.mark.column = 0 ∧ c = '%' then s.scanDirective
  else if s.cursor.atDocumentMarker then
    s.scanMarker (if c = '-' then .documentStart else .documentEnd)
  else if c = '[' then s.openFlow .flowSequenceStart
  else if c = '\x7b' then s.openFlow .flowMappingStart
  else if c = ']' then s.closeFlow .flowSequenceEnd
  else if c = '\x7d' then s.closeFlow .flowMappingEnd
  else if c = ',' then s.scanFlowEntry
  else if c = '-' ∧ atWordEnd = true then s.scanBlockEntry
  else if c = '?' ∧ (s.inFlow || atWordEnd) = true then s.scanKey
  else if c = ':' ∧ (s.inFlow || atWordEnd) = true then s.scanValue
  else if c = '*' then
    s.scanInline fun c => (anchorName (c.skip 1)).map fun p => (.reference p.1, p.2)
  else if c = '&' then
    s.scanInline fun c => (anchorName (c.skip 1)).map fun p => (.anchor p.1, p.2)
  else if c = '!' then s.scanInline (tagToken s.inFlow)
  else if c = '|' ∧ s.inFlow = false then s.scanBlockScalar true
  else if c = '>' ∧ s.inFlow = false then s.scanBlockScalar false
  else if c = '\'' then
    s.scanInline fun c => (quotedScalar true c).map fun p => (.scalar p.1 .single, p.2)
  else if c = '"' then
    s.scanInline fun c => (quotedScalar false c).map fun p => (.scalar p.1 .double, p.2)
  else if startsPlain c ∨ (c = '-' ∧ r.head?.any isGap = false) ∨
      (s.inFlow = false ∧ (c = '?' ∨ c = ':') ∧ atWordEnd = false) then s.scanPlain
  else none

/-- Scans the next token and what comes with it. -/
def fetch (s : Scanner) : Option Scanner := do
  let s ← s.skipToToken.dropStaleKeys
  let s := s.closeBlocks s.mark.column
  match s.cursor.rest with
  | [] => s.endText
  | c :: r => s.scanToken c r

/-- The tokens that are released, and whether the text was sound to its end. The fuel bounds the
number of steps. -/
def run (s : Scanner) : Nat → List Token × Bool
  | 0 => ([], false)
  | fuel + 1 =>
    let scanOn (s : Scanner) : List Token × Bool :=
      match s.fetch with
      | some s => run s fuel
      | none => ([], false)
    match s.held with
    | [] => if s.finished then ([], true) else scanOn s
    | t :: r =>
      match s.dropStaleKeys with
      | none => ([], false)
      | some s =>
        if s.holdsHead then scanOn s
        else
          let (ts, sound) := run { s with held := r, released := s.released + 1 } fuel
          (t :: ts, sound)

end Scanner

/-- The tokens of a text as far as it is sound. -/
def tokens (text : List Char) : List Token :=
  if text.all isAllowed then ((Scanner.start text).run (16 * text.length + 64)).1 else []

end MarketingForm.Yaml
