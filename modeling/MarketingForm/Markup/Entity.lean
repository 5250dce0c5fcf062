/-!
# Character references

Text enters markup with its markup characters replaced by character references. Which characters
those are depends on the position: between tags only `&`, `<` and `>`, inside a quoted attribute
also the quotes that could end it.
-/

namespace MarketingForm

/-- Where a text stands in markup. -/
inductive Position where
  /-- Between tags. -/
  | content
  /-- Inside a double-quoted attribute. -/
  | doubleQuoted
  /-- Inside a single-quoted attribute. -/
  | singleQuoted
  /-- Anywhere: between tags or inside either kind of quotes. -/
  | anywhere
deriving DecidableEq

namespace Position

/-- Whether a double quote must be replaced. -/
def guardsDouble : Position → Bool
  | doubleQuoted | anywhere => true
  | content | singleQuoted => false

/-- Whether a single quote must be replaced. -/
def guardsSingle : Position → Bool
  | singleQuoted | anywhere => true
  | content | doubleQuoted => false

/-- A character as it is written in a position. -/
def encodeChar (p : Position) (c : Char) : List Char :=
  if c = '&' then ['&', 'a', 'm', 'p', ';']
  else if c = '<' then ['&', 'l', 't', ';']
  else if c = '>' then ['&', 'g', 't', ';']
  else if c = '"' ∧ p.guardsDouble = true then ['&', 'q', 'u', 'o', 't', ';']
  else if c = '\'' ∧ p.guardsSingle = true then ['&', '#', 'x', '2', '7', ';']
  else [c]

/-- A text as it is written in a position. -/
def encode (p : Position) (s : List Char) : List Char := s.flatMap p.encodeChar

@[simp] theorem encode_nil (p : Position) : p.encode [] = [] := rfl

@[simp] theorem encode_cons (p : Position) (c : Char) (s : List Char) :
    p.encode (c :: s) = p.encodeChar c ++ p.encode s := rfl

@[simp] theorem encode_append (p : Position) (s t : List Char) :
    p.encode (s ++ t) = p.encode s ++ p.encode t := by simp [encode]

end Position

end MarketingForm
