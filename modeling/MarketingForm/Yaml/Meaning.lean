import MarketingForm.Text.Binary64
import MarketingForm.Text.Quoted

/-!
# What plain scalars mean

A plain scalar is null, a boolean, an integer, a floating-point number or else a text. Integers may
have a sign and, after `0x`, `0o` or `0b`, another base; digits after a leading zero are a text.
-/

namespace MarketingForm.Yaml

/-- A floating-point number as messages show it. -/
inductive Real where
  | finite (negative : Bool) (magnitude : Text.Binary64)
  | infinite (negative : Bool)
  | notANumber
deriving DecidableEq

/-- What a plain scalar means. -/
inductive Meaning where
  | null
  | boolean (b : Bool)
  /-- An integer of 64 bits; `signed` tells that it is written with a minus sign. -/
  | integer (signed : Bool) (n : Int)
  /-- An integer that takes more than 64 bits. -/
  | wide (n : Int)
  | real (x : Real)
  | text (s : List Char)
deriving DecidableEq

def isNullWord (s : List Char) : Bool :=
  s == "null".toList || s == "Null".toList || s == "NULL".toList || s == ['~']

def boolean? (s : List Char) : Option Bool :=
  if s = "true".toList ∨ s = "True".toList ∨ s = "TRUE".toList then some true
  else if s = "false".toList ∨ s = "False".toList ∨ s = "FALSE".toList then some false
  else none

def isDigit (c : Char) : Bool := '0' ≤ c && c ≤ '9'

def isSign (c : Char) : Bool := c == '+' || c == '-'

/-- Whether a text starts with a sign. -/
def startsSigned (s : List Char) : Bool := s.head?.any isSign

/-- Digits after a leading zero, with or without a sign: a text, although it looks like a number. -/
def isZeroPadded (s : List Char) : Bool :=
  match if startsSigned s then s.drop 1 else s with
  | '0' :: d :: r => (d :: r).all isDigit
  | _ => false

/-- The number after a base mark; nothing without one. -/
def basedNumber? (s : List Char) : Option (Option Nat) :=
  match s with
  | '0' :: 'x' :: r => some (Text.readNumeral? 16 r)
  | '0' :: 'o' :: r => some (Text.readNumeral? 8 r)
  | '0' :: 'b' :: r => some (Text.readNumeral? 2 r)
  | _ => none

/-- The number of a text without a minus sign. -/
def unsigned? (s : List Char) : Option Nat :=
  let bare := if s.head? = some '+' then s.drop 1 else s
  match basedNumber? bare with
  | some n => n
  | none => if isZeroPadded s then none else Text.readNumeral? 10 bare

/-- The magnitude of a text with a minus sign. -/
def negative? (s : List Char) : Option Nat :=
  match s with
  | '-' :: bare =>
    match basedNumber? bare with
    | some n => n
    | none => if isZeroPadded s then none else Text.readNumeral? 10 bare
  | _ => none

/-- The integer that a text denotes, if 128 bits can hold it. -/
def integer? (s : List Char) : Option Meaning :=
  match unsigned? s, negative? s with
  | some n, _ =>
    if n < Nat.pow 2 64 then some (.integer false n)
    else if n < Nat.pow 2 128 then some (.wide n)
    else none
  | none, some n =>
    if n ≤ Nat.pow 2 63 then some (.integer true (-n))
    else if n ≤ Nat.pow 2 127 then some (.wide (-n))
    else none
  | none, none => none

/-- The exponent of a number: nothing, or a mark with an optional sign and digits. -/
def exponent? : List Char → Option Int
  | [] => some 0
  | c :: r =>
    if c = 'e' ∨ c = 'E' then
      match r with
      | '-' :: ds => (Text.readNumeral? 10 ds).map fun n => -(n : Int)
      | '+' :: ds => (Text.readNumeral? 10 ds).map fun n => (n : Int)
      | ds => (Text.readNumeral? 10 ds).map fun n => (n : Int)
    else none

/-- A decimal with a point or an exponent, without a sign. -/
def decimal? (s : List Char) : Option Text.DecimalFloat :=
  let whole := s.takeWhile isDigit
  let rest := s.dropWhile isDigit
  let (fraction, rest) :=
    match rest with
    | '.' :: r => (r.takeWhile isDigit, r.dropWhile isDigit)
    | r => ([], r)
  match Text.readNumeral? 10 (whole ++ fraction), exponent? rest with
  | some n, some e => some ⟨n, e - fraction.length⟩
  | _, _ => none

/-- The finite number that a text denotes, without a plus sign. -/
def finite? (s : List Char) : Option Real :=
  let (negative, bare) :=
    match s with
    | '-' :: r => (true, r)
    | r => (false, r)
  (decimal? bare).bind fun x => (Text.Binary64.ofDecimal x).map fun m => .finite negative m

def isInfinityWord (s : List Char) : Bool :=
  s == ".inf".toList || s == ".Inf".toList || s == ".INF".toList

def isNanWord (s : List Char) : Bool :=
  s == ".nan".toList || s == ".NaN".toList || s == ".NAN".toList

/-- The floating-point number that a text denotes. -/
def real? (s : List Char) : Option Real :=
  let bare := if s.head? = some '+' then s.drop 1 else s
  if s.head? = some '+' ∧ startsSigned bare = true then none
  else if isInfinityWord bare then some (.infinite false)
  else if s.head? = some '-' ∧ isInfinityWord (s.drop 1) = true then some (.infinite true)
  else if isNanWord s then some .notANumber
  else finite? bare

/-- What a plain scalar means. -/
def meaning (s : List Char) : Meaning :=
  if s.isEmpty || isNullWord s then .null
  else
    match boolean? s with
    | some b => .boolean b
    | none =>
      match integer? s with
      | some m => m
      | none =>
        match (if isZeroPadded s then none else real? s) with
        | some x => .real x
        | none => .text s

/-- A number as messages show it: positional, with at least one digit after the point. -/
def Real.describe : Real → String
  | finite negative m => (if negative then "-" else "") ++ String.ofList m.shortest.positional
  | infinite negative => if negative then "-inf" else "inf"
  | notANumber => "NaN"

/-- How messages name a value of some meaning. -/
def Meaning.named : Meaning → String
  | null => "unit value"
  | boolean b => "boolean `" ++ (if b then "true" else "false") ++ "`"
  | integer _ n => "integer `" ++ Text.decimal n ++ "`"
  | wide n => "integer `" ++ Text.decimal n ++ (if 0 ≤ n then "` as u128" else "` as i128")
  | real x => "floating point `" ++ x.describe ++ "`"
  | text s => "string " ++ Text.quoted (String.ofList s)

end MarketingForm.Yaml
