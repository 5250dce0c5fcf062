/-!
# Blank characters

Trimming, blank tests and file names all speak of the same characters: those with the Unicode
property `White_Space`. Zero-width spaces and the byte order mark are not among them.
-/

namespace MarketingForm.Text

/-- The Unicode property `White_Space`. -/
def isBlank (c : Char) : Bool :=
  let n := c.toNat
  (0x09 ≤ n && n ≤ 0x0D) || n == 0x20 || n == 0x85 || n == 0xA0 || n == 0x1680 ||
    (0x2000 ≤ n && n ≤ 0x200A) || n == 0x2028 || n == 0x2029 || n == 0x202F || n == 0x205F ||
    n == 0x3000

/-- A text is blank when trimming leaves nothing of it. -/
def allBlank (s : String) : Bool := s.toList.all isBlank

/-- The text without its leading and trailing blanks. -/
def trim (cs : List Char) : List Char :=
  ((cs.dropWhile isBlank).reverse.dropWhile isBlank).reverse

theorem trim_of_all_blank {cs : List Char} (h : cs.all isBlank = true) : trim cs = [] := by
  have : cs.dropWhile isBlank = [] := by
    induction cs with
    | nil => rfl
    | cons c r ih => simp_all
  simp [trim, this]

end MarketingForm.Text
