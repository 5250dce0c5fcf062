import MarketingForm.Text.Numeral

/-!
# JSON texts

Strings are written with the short escapes of JSON for the quote, the backslash and the five common
control characters; the other control characters below U+0020 take the form `\u00xx`. All other
characters stand for themselves.
-/

namespace MarketingForm.Json

/-- The escape of a control character without a short one. -/
def hexEscape (n : Nat) : List Char :=
  ['\\', 'u', '0', '0', Text.digitChar (n / 16), Text.digitChar (n % 16)]

/-- A character as it is written inside a string. -/
def encodeChar (c : Char) : List Char :=
  if c = '"' then ['\\', '"']
  else if c = '\\' then ['\\', '\\']
  else if c = '\x08' then ['\\', 'b']
  else if c = '\x0c' then ['\\', 'f']
  else if c = '\n' then ['\\', 'n']
  else if c = '\r' then ['\\', 'r']
  else if c = '\t' then ['\\', 't']
  else if c.toNat < 0x20 then hexEscape c.toNat
  else [c]

/-- A string with its quotes. -/
def encodeString (s : List Char) : List Char := '"' :: s.flatMap encodeChar ++ ['"']

end MarketingForm.Json
