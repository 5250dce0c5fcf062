import MarketingForm.Text.Numeral
import MarketingForm.Text.Printable

/-!
# Quoted texts in messages

A text that a message quotes stands in double quotes. The quote and the backslash are escaped, NUL,
tab, line feed and carriage return have short escapes, and every character that could not be seen is
given by its code point.
-/

namespace MarketingForm.Text

/-- A character as a message shows it. -/
def quotedChar (c : Char) : List Char :=
  if c = '"' then ['\\', '"']
  else if c = '\\' then ['\\', '\\']
  else if c = '\x00' then ['\\', '0']
  else if c = '\t' then ['\\', 't']
  else if c = '\n' then ['\\', 'n']
  else if c = '\r' then ['\\', 'r']
  else if isPlainlyVisible c then [c]
  else '\\' :: 'u' :: '\x7b' :: numeral 16 c.toNat ++ ['\x7d']

/-- A text in quotes, as a message shows it. -/
def quoted (s : String) : String := String.ofList ('"' :: s.toList.flatMap quotedChar ++ ['"'])

end MarketingForm.Text
