import MarketingForm.Text.Numeral
import MarketingForm.Yaml.Token.Gap

/-!
# Quoted scalars

In single quotes only the quote itself is special: two of them stand for one. In double quotes a
backslash starts an escape, and a backslash at the end of a line joins the next line without a
space.
-/

namespace MarketingForm.Yaml

/-- The character that a one-letter escape stands for. -/
def letterEscape? (c : Char) : Option Char :=
  match c with
  | '0' => some '\x00'
  | 'a' => some '\x07'
  | 'b' => some '\x08'
  | 't' => some '\t'
  | '\t' => some '\t'
  | 'n' => some '\n'
  | 'v' => some '\x0b'
  | 'f' => some '\x0c'
  | 'r' => some '\r'
  | 'e' => some '\x1b'
  | ' ' => some ' '
  | '"' => some '"'
  | '/' => some '/'
  | '\\' => some '\\'
  | 'N' => some '\u0085'
  | '_' => some '\u00a0'
  | 'L' => some '\u2028'
  | 'P' => some '\u2029'
  | _ => none

/-- The number of hexadecimal digits that an escape takes. -/
def hexEscapeLength? (c : Char) : Option Nat :=
  match c with
  | 'x' => some 2
  | 'u' => some 4
  | 'U' => some 8
  | _ => none

/-- The character with a code point, unless there is none. -/
def charOfCode? (n : Nat) : Option Char :=
  if n.isValidChar then some (Char.ofNat n) else none

/-- Reads an escape after its backslash: the character and how many characters it takes. -/
def readEscape : List Char → Option (Char × Nat)
  | [] => none
  | c :: r =>
    match letterEscape? c with
    | some e => some (e, 1)
    | none =>
      match hexEscapeLength? c with
      | none => none
      | some n =>
        if r.length < n then none
        else ((Text.readNumeral? 16 (r.take n)).bind charOfCode?).map fun d => (d, n + 1)

/-- What ends a word in quotes. -/
inductive QuotedEnd where
  | quote
  | gap
  | escapedBreak
  | refused
deriving DecidableEq

/-- A word in quotes: its text, how many characters it takes and what ends it. -/
structure QuotedWord where
  text : List Char
  count : Nat
  stop : QuotedEnd

/-- The word with a character before it that took some characters to write. -/
def QuotedWord.cons (c : Char) (taken : Nat) (w : QuotedWord) : QuotedWord :=
  ⟨c :: w.text, taken + w.count, w.stop⟩

/-- Splits off a word in quotes. The fuel bounds the number of characters. -/
def quotedWord (single : Bool) (s : List Char) : Nat → QuotedWord
  | 0 => ⟨[], 0, .refused⟩
  | fuel + 1 =>
    match s with
    | [] => ⟨[], 0, .gap⟩
    | c :: r =>
      if isGap c || isBreak c then ⟨[], 0, .gap⟩
      else if single then
        if c == '\'' then
          if r.head? == some '\'' then (quotedWord single (r.drop 1) fuel).cons '\'' 2
          else ⟨[], 0, .quote⟩
        else (quotedWord single r fuel).cons c 1
      else if c == '"' then ⟨[], 0, .quote⟩
      else if c == '\\' then
        if r.head?.any isBreak then ⟨[], 1, .escapedBreak⟩
        else
          match readEscape r with
          | some (e, n) => (quotedWord single (r.drop n) fuel).cons e (n + 1)
          | none => ⟨[], 0, .refused⟩
      else (quotedWord single r fuel).cons c 1

/-- Reads the words of a quoted scalar up to its closing quote. The fuel bounds their number. -/
def quotedFrom (single : Bool) (text : List Char) (c : Cursor) : Nat → Option (List Char × Cursor)
  | 0 => none
  | fuel + 1 =>
    if c.atDocumentMarker || c.rest.isEmpty then none
    else
      let word := quotedWord single c.rest (c.rest.length + 1)
      let text := text ++ word.text
      let c := c.skip word.count
      let readOn (gap : Gap) (c : Cursor) : Option (List Char × Cursor) :=
        match Gap.read 0 gap c (c.rest.length + 1) with
        | none => none
        | some (gap, c) => quotedFrom single (text ++ gap.fold) c fuel
      match word.stop with
      | .refused => none
      | .quote => some (text, c.skip 1)
      | .gap => readOn .empty c
      | .escapedBreak => readOn .escapedBreak c.readBreak.2

/-- Reads a quoted scalar from its opening quote on. -/
def quotedScalar (single : Bool) (c : Cursor) : Option (List Char × Cursor) :=
  quotedFrom single [] (c.skip 1) (c.rest.length + 1)

end MarketingForm.Yaml
