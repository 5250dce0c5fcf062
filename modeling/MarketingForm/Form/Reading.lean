import MarketingForm.Form.Value
import MarketingForm.Json.ChoiceList
import MarketingForm.Text.Blank
import MarketingForm.Text.Numeral

/-!
# Values as users type them

A typed text is read as a value of the same kind as a template: a switch word for a flag, a decimal
integer for an integer, a JSON array for a choice list. Without a template it is a text.
-/

namespace MarketingForm

/-- Why a text is no 64-bit integer. -/
inductive IntegerFault where
  | empty
  | invalidDigit
  | tooLarge
  | tooSmall
deriving DecidableEq

def IntegerFault.message : IntegerFault → String
  | empty => "cannot parse integer from empty string"
  | invalidDigit => "invalid digit found in string"
  | tooLarge => "number too large to fit in target type"
  | tooSmall => "number too small to fit in target type"

/-- Reads decimal digits, continuing from `acc`, as a number of at most `limit`. The first
character at fault decides the fault: no digit, or a digit that takes the number past the limit. -/
def readBounded (limit : Nat) (overflow : IntegerFault) (acc : Nat) :
    List Char → Except IntegerFault Nat
  | [] => .ok acc
  | c :: r =>
    match Text.decimalDigit? c with
    | none => .error .invalidDigit
    | some d =>
      if acc * 10 + d ≤ limit then readBounded limit overflow (acc * 10 + d) r
      else .error overflow

/-- Reads the digits of an integer; a sign alone has none. -/
def readMagnitude (limit : Nat) (overflow : IntegerFault) : List Char → Except IntegerFault Nat
  | [] => .error .invalidDigit
  | c :: r => readBounded limit overflow 0 (c :: r)

/-- Reads a decimal 64-bit integer with an optional sign. -/
def readInt64 : List Char → Except IntegerFault Int64
  | [] => .error .empty
  | '-' :: ds => (readMagnitude (Nat.pow 2 63) .tooSmall ds).map fun n : Nat => Int64.ofInt (-n)
  | '+' :: ds => (readMagnitude (Nat.pow 2 63 - 1) .tooLarge ds).map fun n : Nat => Int64.ofInt n
  | ds => (readMagnitude (Nat.pow 2 63 - 1) .tooLarge ds).map fun n : Nat => Int64.ofInt n

/-- Why a typed text was refused. -/
inductive ReadingError where
  | notFlag (raw : String)
  | notInteger (raw : String) (fault : IntegerFault)
  | notChoices (raw : String) (fault : Json.Fault)
deriving DecidableEq

namespace ReadingError

def message : ReadingError → String
  | notFlag raw => "expected true or false, got '" ++ raw ++ "' (use --text to store it as text)"
  | notInteger raw _ => "expected an integer, got '" ++ raw ++ "' (use --text to store it as text)"
  | notChoices .. =>
    "expected a JSON array like [\x7b\"value\":\"1\",\"label\":\"Yes\"\x7d]"

/-- The finer cause behind the refusal, if there is one. -/
def causes : ReadingError → List String
  | notFlag _ => []
  | notInteger _ fault => [fault.message]
  | notChoices raw fault => [fault.message raw.toList]

end ReadingError

/-- The switch positions by their words, in any ASCII case. -/
def readFlag? (raw : String) : Option Bool :=
  let word := Text.asciiLower raw
  if word = "true" ∨ word = "yes" ∨ word = "on" then some true
  else if word = "false" ∨ word = "no" ∨ word = "off" then some false
  else none

namespace Value

/-- Reads a typed text as a value of a kind. -/
def readAs (kind : ValueKind) (raw : String) : Except ReadingError Value :=
  match kind with
  | .flag =>
    match readFlag? raw with
    | some b => .ok (.flag b)
    | none => .error (.notFlag raw)
  | .integer =>
    match readInt64 (Text.trim raw.toList) with
    | .ok n => .ok (.integer n)
    | .error e => .error (.notInteger raw e)
  | .choices =>
    match Json.readChoices raw.toList with
    | .ok cs => .ok (.choices cs)
    | .error e => .error (.notChoices raw e)
  | .text => .ok (.text raw)

/-- Reads a typed text as a value of the template's kind. -/
def read (template : Option Value) (raw : String) : Except ReadingError Value :=
  match template with
  | some v => readAs v.kind raw
  | none => .ok (.text raw)

end Value

end MarketingForm
