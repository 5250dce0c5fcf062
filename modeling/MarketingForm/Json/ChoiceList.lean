import MarketingForm.Form.Value
import MarketingForm.Json.Reader

/-!
# Reading choice lists

A choice list is an array whose elements are objects with the members `value` and `label`, in any
order and among any others, or arrays of just the two.
-/

namespace MarketingForm.Json

/-- What an element of a choice list should have been. -/
def choiceExpected : String := "struct OptionPair"

/-- What an array in place of a choice should have held. -/
def pairExpected : String := "struct OptionPair with 2 elements"

/-- Looks for the next element of an array: nothing if the array ends. -/
def nextElement (first : Bool) (s : List Char) : Except Fault (Option (List Char)) :=
  match skipBlanks s with
  | [] => failAhead .eofInList []
  | ']' :: _ => .ok none
  | c :: r =>
    if first then .ok (some (c :: r))
    else if c = ',' then
      match skipBlanks r with
      | ']' :: r => failAhead .trailingComma (']' :: r)
      | [] => failAhead .eofInValue []
      | r => .ok (some r)
    else failAhead .expectedListEnd (c :: r)

/-- Closes an array. -/
def endArray (s : List Char) : Except Fault (List Char) :=
  match skipBlanks s with
  | ']' :: r => .ok r
  | ',' :: r =>
    match skipBlanks r with
    | ']' :: r => failAhead .trailingComma (']' :: r)
    | r => failAhead .trailingCharacters r
  | [] => failAhead .eofInList []
  | r => failAhead .trailingCharacters r

/-- Reads one of the two texts of a pair. -/
def readPairElement (index : Nat) (s : List Char) : Except Fault (String × List Char) :=
  match nextElement (index == 0) s with
  | .error e => .error e
  | .ok none => failBehind (.invalidLength index pairExpected) ((skipBlanks s).drop 1)
  | .ok (some r) => readText r

/-- Reads a choice after its opening bracket. -/
def readPair (s : List Char) : Except Fault (Choice × List Char) := do
  let (value, r) ← readPairElement 0 s
  let (label, r) ← readPairElement 1 r
  let r ← endArray r
  .ok (⟨value, label⟩, r)

/-- Looks for the next member of an object: nothing if the object ends. What follows starts after
the quote of the member's name. -/
def nextMember (first : Bool) (s : List Char) : Except Fault (Option (List Char)) :=
  match skipBlanks s with
  | [] => failAhead .eofInObject []
  | '\x7d' :: _ => .ok none
  | c :: r =>
    if first then (if c = '"' then .ok (some r) else failAhead .keyNotString (c :: r))
    else if c = ',' then
      match skipBlanks r with
      | '"' :: r => .ok (some r)
      | '\x7d' :: r => failAhead .trailingComma ('\x7d' :: r)
      | [] => failAhead .eofInValue []
      | r => failAhead .keyNotString r
    else failAhead .expectedObjectEnd (c :: r)

/-- Reads the colon after a member's name. -/
def readColon (s : List Char) : Except Fault (List Char) :=
  match skipBlanks s with
  | ':' :: r => .ok r
  | [] => failAhead .eofInObject []
  | r => failAhead .expectedColon r

/-- Refuses a repeated member after its name. -/
def refuseDuplicate {α : Type} (name : String) (s : List Char) : Except Fault α :=
  match skipBlanks s with
  | '\x7d' :: r => failBehind (.duplicateField name) r
  | r => failBehind (.duplicateField name) r

/-- The members of a choice that have been read. -/
structure Members where
  value : Option String
  label : Option String

/-- The choice that complete members form; `rest` follows the closing brace. -/
def Members.finish (m : Members) (rest : List Char) : Except Fault (Choice × List Char) :=
  match m.value, m.label with
  | none, _ => failBehind (.missingField "value") rest
  | some _, none => failBehind (.missingField "label") rest
  | some v, some l => .ok (⟨v, l⟩, rest)

/-- Reads one member after its name. -/
def readMember (m : Members) (name : String) (s : List Char) : Except Fault (Members × List Char) :=
  if name = "value" then
    if m.value.isSome then refuseDuplicate name s
    else (readColon s >>= readText).map fun p => (⟨some p.1, m.label⟩, p.2)
  else if name = "label" then
    if m.label.isSome then refuseDuplicate name s
    else (readColon s >>= readText).map fun p => (⟨m.value, some p.1⟩, p.2)
  else (readColon s >>= skipValue).map fun r => (m, r)

/-- Reads the members of a choice; the fuel bounds their number. -/
def readMembers (m : Members) (first : Bool) (s : List Char) :
    Nat → Except Fault (Choice × List Char)
  | 0 => failAhead .eofInObject s
  | fuel + 1 =>
    match nextMember first s with
    | .error e => .error e
    | .ok none => m.finish ((skipBlanks s).drop 1)
    | .ok (some r) => do
      let (name, r) ← readString [] r
      let (m, r) ← readMember m (String.ofList name) r
      readMembers m false r fuel

/-- Reads an element of a choice list. -/
def readChoice (s : List Char) : Except Fault (Choice × List Char) :=
  match skipBlanks s with
  | [] => failAhead .eofInValue []
  | '[' :: r => readPair r
  | '\x7b' :: r => readMembers ⟨none, none⟩ true r (r.length + 1)
  | r => refuse choiceExpected r

/-- Reads the elements of a choice list; the fuel bounds their number. -/
def readElements (first : Bool) (s : List Char) : Nat → Except Fault (List Choice × List Char)
  | 0 => failAhead .eofInList s
  | fuel + 1 =>
    match nextElement first s with
    | .error e => .error e
    | .ok none => .ok ([], (skipBlanks s).drop 1)
    | .ok (some r) => do
      let (c, r) ← readChoice r
      let (cs, r) ← readElements false r fuel
      .ok (c :: cs, r)

/-- Reads a whole text as a choice list. -/
def readChoices (text : List Char) : Except Fault (List Choice) :=
  match skipBlanks text with
  | [] => failAhead .eofInValue []
  | '[' :: r => do
    let (cs, r) ← readElements true r (r.length + 1)
    match skipBlanks r with
    | [] => .ok cs
    | r => failAhead .trailingCharacters r
  | r => do
    let (_ : Unit) ← refuse "a sequence" r
    .ok []

end MarketingForm.Json
