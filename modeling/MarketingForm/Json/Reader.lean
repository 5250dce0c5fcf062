import MarketingForm.Json.Fault
import MarketingForm.Text.Binary64
import MarketingForm.Text.Quoted
import MarketingForm.Text.Utf8

/-!
# Reading JSON

Readers take the front of a text and return what is left. Strings may hold any characters but
unescaped control characters; an escaped surrogate must be paired. Values that nobody asks for are
skipped, but their form is checked.
-/

namespace MarketingForm.Json

/-- Drops blanks, tabs, line feeds and carriage returns. -/
def skipBlanks : List Char → List Char
  | [] => []
  | c :: r => if c = ' ' ∨ c = '\n' ∨ c = '\t' ∨ c = '\r' then skipBlanks r else c :: r

/-! ### Strings -/

/-- The value of four hexadecimal digits. -/
def hexQuad? (a b c d : Char) : Option Nat := Text.readNumeral? 16 [a, b, c, d]

/-- Refuses four bytes that are not hexadecimal digits, or the end of the text before them. -/
def refuseHex {α : Type} (s : List Char) : Except Fault α :=
  if Text.utf8Length s < 4 then failBehind .eofInString [] else .error ⟨.invalidEscape, s, 4⟩

/-- The character that a short escape stands for. -/
def shortEscape? (c : Char) : Option Char :=
  match c with
  | '"' => some '"'
  | '\\' => some '\\'
  | '/' => some '/'
  | 'b' => some '\x08'
  | 'f' => some '\x0c'
  | 'n' => some '\n'
  | 'r' => some '\r'
  | 't' => some '\t'
  | _ => none

def isHighSurrogate (n : Nat) : Bool := 0xD800 ≤ n && n ≤ 0xDBFF

def isLowSurrogate (n : Nat) : Bool := 0xDC00 ≤ n && n ≤ 0xDFFF

/-- The character of a surrogate pair. -/
def pairChar (high low : Nat) : Char :=
  Char.ofNat (0x10000 + (high - 0xD800) * 0x400 + (low - 0xDC00))

/-- Reads the rest of a string after its opening quote. -/
def readString (acc : List Char) : List Char → Except Fault (List Char × List Char)
  | [] => failBehind .eofInString []
  | '"' :: r => .ok (acc.reverse, r)
  | '\\' :: 'u' :: a :: b :: c :: d :: r =>
    match hexQuad? a b c d with
    | none => refuseHex (a :: b :: c :: d :: r)
    | some n =>
      if isLowSurrogate n then failBehind .loneSurrogate r
      else if isHighSurrogate n then
        match r with
        | '\\' :: 'u' :: a :: b :: c :: d :: r =>
          match hexQuad? a b c d with
          | none => refuseHex (a :: b :: c :: d :: r)
          | some m =>
            if isLowSurrogate m then readString (pairChar n m :: acc) r
            else failBehind .loneSurrogate r
        | '\\' :: 'u' :: r => refuseHex r
        | ['\\'] => failBehind .eofInString []
        | '\\' :: r => failAhead .brokenSurrogatePair r
        | [] => failBehind .eofInString []
        | r => failAhead .brokenSurrogatePair r
      else readString (Char.ofNat n :: acc) r
  | '\\' :: 'u' :: r => refuseHex r
  | ['\\'] => failBehind .eofInString []
  | '\\' :: c :: r =>
    match shortEscape? c with
    | some e => readString (e :: acc) r
    | none => failAhead .invalidEscape (c :: r)
  | c :: r =>
    if c.toNat < 0x20 then failBehind .controlCharacter r else readString (c :: acc) r

/-- Skips the rest of a string after its opening quote; surrogates need not be paired. -/
def skipString : List Char → Except Fault (List Char)
  | [] => failBehind .eofInString []
  | '"' :: r => .ok r
  | '\\' :: 'u' :: a :: b :: c :: d :: r =>
    match hexQuad? a b c d with
    | none => refuseHex (a :: b :: c :: d :: r)
    | some _ => skipString r
  | '\\' :: 'u' :: r => refuseHex r
  | ['\\'] => failBehind .eofInString []
  | '\\' :: c :: r =>
    match shortEscape? c with
    | some _ => skipString r
    | none => failAhead .invalidEscape (c :: r)
  | c :: r => if c.toNat < 0x20 then failBehind .controlCharacter (c :: r) else skipString r

/-! ### Words and numbers -/

/-- Reads the remaining letters of a word whose first letter has been read. -/
def readWord : List Char → List Char → Except Fault (List Char)
  | [], s => .ok s
  | _ :: _, [] => failBehind .eofInValue []
  | w :: ws, c :: r => if c = w then readWord ws r else failAhead .expectedIdent (c :: r)

def isDigit (c : Char) : Bool := '0' ≤ c && c ≤ '9'

/-- Splits off the digits at the front. -/
def takeDigits (s : List Char) : List Char × List Char := (s.takeWhile isDigit, s.dropWhile isDigit)

/-- A JSON number in the form in which messages show it. -/
inductive Number where
  | integer (n : Int)
  | float (negative : Bool) (magnitude : Text.Binary64)
deriving DecidableEq

/-- The float of a significand and a decimal exponent: the significand is rounded first and then
scaled by a power of ten that is rounded itself. -/
def scaledFloat (significand : Nat) (exponent : Int) : Option Text.Binary64 :=
  match Text.Binary64.ofRatio significand 1 with
  | none => none
  | some f =>
    if f.mantissa = 0 then some f
    else if 308 < exponent then none
    else
      let power (n : Nat) : Option Text.Binary64 := Text.Binary64.ofRatio (Nat.pow 10 n) 1
      if 0 ≤ exponent then (power exponent.toNat).bind f.mul
      else if -308 ≤ exponent then (power (-exponent).toNat).bind f.div
      else if -616 ≤ exponent then
        ((power 308).bind f.div).bind fun g => (power (-exponent - 308).toNat).bind g.div
      else some ⟨0, 0⟩

/-- The digits that fit into 64 bits, and the count of those that do not. -/
def fitDigits (acc : Nat) : List Char → Nat × Nat
  | [] => (acc, 0)
  | c :: r =>
    let next := acc * 10 + (c.toNat - 0x30)
    if next < UInt64.size then fitDigits next r else (acc, r.length + 1)

/-- Digits after the point continue the significand while they fit. -/
def fitFraction (acc : Nat) (exponent : Int) : List Char → Nat × Int
  | [] => (acc, exponent)
  | c :: r =>
    let next := acc * 10 + (c.toNat - 0x30)
    if next < UInt64.size then fitFraction next (exponent - 1) r else (acc, exponent)

/-- Reads a number after its sign. -/
def readNumber (negative : Bool) : List Char → Except Fault (Number × List Char)
  | [] => failBehind .eofInValue []
  | c :: r =>
    if !isDigit c then failAhead .invalidNumber (c :: r)
    else
      let (more, afterInt) := if c = '0' then ([], r) else takeDigits r
      if c = '0' ∧ r.head?.any isDigit = true then failAhead .invalidNumber r
      else
        let (significand, dropped) := fitDigits 0 (c :: more)
        let finish (significand : Nat) (exponent : Int) (rest : List Char) :
            Except Fault (Number × List Char) :=
          match scaledFloat significand exponent with
          | some f => .ok (.float negative f, rest)
          | none => failBehind .numberOutOfRange rest
        let readExponent (significand : Nat) (exponent : Int) (rest : List Char) :
            Except Fault (Number × List Char) :=
          let (below, rest) :=
            match rest with
            | '+' :: r => (false, r)
            | '-' :: r => (true, r)
            | r => (false, r)
          match rest with
          | [] => failBehind .eofInValue []
          | d :: r =>
            if !isDigit d then failAhead .invalidNumber (d :: r)
            else
              let (ds, rest) := takeDigits (d :: r)
              let n : Int := (Text.readNumeral? 10 ds).getD 0
              finish significand (if below then exponent - n else exponent + n) rest
        match afterInt with
        | '.' :: r =>
          match takeDigits r with
          | ([], []) => failBehind .eofInValue []
          | ([], rest) => failAhead .invalidNumber rest
          | (ds, rest) =>
            let (significand, exponent) := fitFraction significand dropped ds
            match rest with
            | e :: r =>
              if e = 'e' ∨ e = 'E' then readExponent significand exponent r
              else finish significand exponent rest
            | [] => finish significand exponent []
        | e :: r =>
          if e = 'e' ∨ e = 'E' then readExponent significand dropped r
          else if dropped = 0 then integerOrFloat significand afterInt
          else finish significand dropped afterInt
        | [] =>
          if dropped = 0 then integerOrFloat significand afterInt
          else finish significand dropped afterInt
where
  /-- Negative zero and what a signed word cannot hold below zero are floats. -/
  integerOrFloat (significand : Nat) (rest : List Char) : Except Fault (Number × List Char) :=
    if negative = false then .ok (.integer significand, rest)
    else if significand = 0 ∨ Nat.pow 2 63 < significand then
      .ok (.float true ((Text.Binary64.ofRatio significand 1).getD ⟨0, 0⟩), rest)
    else .ok (.integer (-significand), rest)

/-- A number as a message names it. -/
def Number.named : Number → String
  | .integer n => "integer `" ++ Text.decimal n ++ "`"
  | .float negative f =>
    "floating point `" ++ (if negative then "-" else "") ++ String.ofList f.shortest.compact ++ "`"

/-- Skips a number after its sign. -/
def skipNumber : List Char → Except Fault (List Char)
  | [] => failBehind .invalidNumber []
  | c :: r =>
    if !isDigit c then failAhead .invalidNumber (c :: r)
    else if c = '0' ∧ r.head?.any isDigit = true then failAhead .invalidNumber r
    else
      let skipExponent (rest : List Char) : Except Fault (List Char) :=
        let rest :=
          match rest with
          | '+' :: r => r
          | '-' :: r => r
          | r => r
        match rest with
        | [] => failBehind .invalidNumber []
        | d :: r =>
          if isDigit d then .ok (takeDigits r).2 else failAhead .invalidNumber (d :: r)
      match (takeDigits (c :: r)).2 with
      | '.' :: r =>
        match takeDigits r with
        | ([], rest) => failAhead .invalidNumber rest
        | (_, e :: r) => if e = 'e' ∨ e = 'E' then skipExponent r else .ok (e :: r)
        | (_, []) => .ok []
      | e :: r => if e = 'e' ∨ e = 'E' then skipExponent r else .ok (e :: r)
      | [] => .ok []

/-! ### Values that nobody asks for -/

/-- A container that is being skipped. -/
inductive Frame where
  | list
  | object
deriving DecidableEq

/-- What a skip expects next. -/
inductive Expect where
  | value
  /-- A container has just been opened. -/
  | first
  /-- A value inside a container has just ended. -/
  | separator
  | key
deriving DecidableEq

/-- Skips values until every open container is closed; the fuel bounds the number of steps. -/
def skipFrom (frames : List Frame) (expect : Expect) (s : List Char) :
    Nat → Except Fault (List Char)
  | 0 => .ok s
  | fuel + 1 =>
    let ended (r : List Char) : Except Fault (List Char) :=
      if frames.isEmpty then .ok r else skipFrom frames .separator r fuel
    let closed (rest : List Frame) (r : List Char) : Except Fault (List Char) :=
      if rest.isEmpty then .ok r else skipFrom rest .separator r fuel
    match expect, frames, skipBlanks s with
    | .value, _, [] => failAhead .eofInValue []
    | .value, fs, c :: r =>
      match c with
      | 'n' => readWord ['u', 'l', 'l'] r >>= ended
      | 't' => readWord ['r', 'u', 'e'] r >>= ended
      | 'f' => readWord ['a', 'l', 's', 'e'] r >>= ended
      | '"' => skipString r >>= ended
      | '-' => skipNumber r >>= ended
      | '[' => skipFrom (.list :: fs) .first r fuel
      | '\x7b' => skipFrom (.object :: fs) .first r fuel
      | c => if isDigit c then skipNumber (c :: r) >>= ended else failAhead .expectedValue (c :: r)
    | .first, .list :: fs, ']' :: r => closed fs r
    | .first, .list :: _, [] => failAhead .eofInList []
    | .first, .list :: fs, r => skipFrom (.list :: fs) .value r fuel
    | .first, .object :: fs, '\x7d' :: r => closed fs r
    | .first, .object :: _, [] => failAhead .eofInObject []
    | .first, .object :: fs, r => skipFrom (.object :: fs) .key r fuel
    | .separator, .list :: fs, ']' :: r => closed fs r
    | .separator, .list :: fs, ',' :: r => skipFrom (.list :: fs) .value r fuel
    | .separator, .list :: _, [] => failAhead .eofInList []
    | .separator, .list :: _, r => failAhead .expectedListEnd r
    | .separator, .object :: fs, '\x7d' :: r => closed fs r
    | .separator, .object :: fs, ',' :: r => skipFrom (.object :: fs) .key r fuel
    | .separator, .object :: _, [] => failAhead .eofInObject []
    | .separator, .object :: _, r => failAhead .expectedObjectEnd r
    | .key, fs, '"' :: r =>
      match skipString r with
      | .error e => .error e
      | .ok r =>
        match skipBlanks r with
        | ':' :: r => skipFrom fs .value r fuel
        | [] => failAhead .eofInObject []
        | r => failAhead .expectedColon r
    | .key, _, [] => failAhead .eofInObject []
    | .key, _, r => failAhead .keyNotString r
    | .first, [], r => .ok r
    | .separator, [], r => .ok r

/-- Skips one value. -/
def skipValue (s : List Char) : Except Fault (List Char) :=
  skipFrom [] .value s (2 * s.length + 2)

/-! ### Refusals -/

/-- Refuses the value at the front of a text, which is not what was expected. -/
def refuse {α : Type} (expected : String) (s : List Char) : Except Fault α :=
  let wrong (found : String) (rest : List Char) : Except Fault α :=
    failBehind (.invalidType found expected) rest
  match s with
  | 'n' :: r => readWord ['u', 'l', 'l'] r >>= wrong "null"
  | 't' :: r => readWord ['r', 'u', 'e'] r >>= wrong "boolean `true`"
  | 'f' :: r => readWord ['a', 'l', 's', 'e'] r >>= wrong "boolean `false`"
  | '-' :: r => readNumber true r >>= fun p => wrong p.1.named p.2
  | '"' :: r =>
    readString [] r >>= fun p => wrong ("string " ++ Text.quoted (String.ofList p.1)) p.2
  | '[' :: r => wrong "sequence" ('[' :: r)
  | '\x7b' :: r => wrong "map" ('\x7b' :: r)
  | c :: r =>
    if isDigit c then readNumber false (c :: r) >>= fun p => wrong p.1.named p.2
    else failAhead .expectedValue (c :: r)
  | [] => failAhead .expectedValue []

/-- Reads a string value. -/
def readText (s : List Char) : Except Fault (String × List Char) :=
  match skipBlanks s with
  | [] => failAhead .eofInValue []
  | '"' :: r => (readString [] r).map fun p => (String.ofList p.1, p.2)
  | r => refuse "a string" r

end MarketingForm.Json
