/-!
# Positional numerals

Numbers as digits in a base up to 36, most significant digit first, written with `0`-`9` and then
`a`-`z`. Zero is the single digit `0`; no other numeral starts with `0`.
-/

namespace MarketingForm.Text

/-- The digit with value `d`, for `d < 36`. -/
def digitChar (d : Nat) : Char :=
  if d < 10 then Char.ofNat (0x30 + d) else Char.ofNat (0x57 + d)

/-- The numeral of `n` in base `b`; a base below two has the single digit of `n`. -/
def numeral (b n : Nat) : List Char :=
  if _h : n < b ∨ b < 2 then [digitChar n] else numeral b (n / b) ++ [digitChar (n % b)]
termination_by n
decreasing_by exact Nat.div_lt_self (by omega) (by omega)

/-- Decimal digits of an integer, with a leading `-` below zero. -/
def decimal (n : Int) : String :=
  if n < 0 then String.ofList ('-' :: numeral 10 n.natAbs) else String.ofList (numeral 10 n.natAbs)

/-- The value of an ASCII decimal digit. -/
def decimalDigit? (c : Char) : Option Nat :=
  if '0' ≤ c ∧ c ≤ '9' then some (c.toNat - 0x30) else none

/-- The value of an ASCII digit in a base up to 36; letters count in either case. -/
def digitValue? (b : Nat) (c : Char) : Option Nat :=
  let v? :=
    if '0' ≤ c ∧ c ≤ '9' then some (c.toNat - 0x30)
    else if 'a' ≤ c ∧ c ≤ 'z' then some (c.toNat - 0x57)
    else if 'A' ≤ c ∧ c ≤ 'Z' then some (c.toNat - 0x37)
    else none
  v?.filter (· < b)

/-- Reads a non-empty run of digits in base `b`, continuing from `acc`. -/
def readDigits (b : Nat) (acc : Nat) : List Char → Option Nat
  | [] => some acc
  | c :: r => (digitValue? b c).bind fun d => readDigits b (acc * b + d) r

/-- Reads a numeral in base `b`. -/
def readNumeral? (b : Nat) : List Char → Option Nat
  | [] => none
  | c :: r => readDigits b 0 (c :: r)

theorem numeral_of_lt {b n : Nat} (h : n < b) : numeral b n = [digitChar n] := by
  rw [numeral]; simp [h]

theorem numeral_of_le {b n : Nat} (h : b ≤ n) (hb : 2 ≤ b) :
    numeral b n = numeral b (n / b) ++ [digitChar (n % b)] := by
  rw [numeral]; simp [Nat.not_lt.2 h, Nat.not_lt.2 hb]

theorem numeral_ne_nil (b n : Nat) : numeral b n ≠ [] := by
  rw [numeral]; split <;> simp

end MarketingForm.Text
