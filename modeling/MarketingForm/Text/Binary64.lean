import MarketingForm.Text.Numeral

/-!
# Binary floating-point numbers in decimal

A finite number of 64-bit binary floating point is `mantissa * 2 ^ exponent` with a mantissa below
`2 ^ 53` and an exponent of at least `-1074`. Everything here is exact arithmetic on naturals.

- `Binary64.ofRatio` rounds a quotient to the nearest number; a tie goes to the even mantissa.
- `Binary64.shortest` finds the fewest decimal digits that round back to a number, and of those the
  nearest.
-/

namespace MarketingForm.Text

/-- The magnitude of a finite number. -/
structure Binary64 where
  mantissa : Nat
  exponent : Int
deriving DecidableEq

/-- A decimal `digits * 10 ^ exponent`. -/
structure DecimalFloat where
  digits : Nat
  exponent : Int
deriving DecidableEq

namespace Binary64

/-- The nearest natural to `n / d`, a tie to the even one. -/
def roundDiv (n d : Nat) : Nat :=
  let q := n / d
  let r := n % d
  if 2 * r < d then q
  else if d < 2 * r then q + 1
  else if q % 2 = 0 then q else q + 1

/-- `n / d` scaled by `2 ^ (-e)` as a quotient of naturals. -/
def scaled (n d : Nat) (e : Int) : Nat × Nat :=
  if 0 ≤ e then (n, d * Nat.pow 2 e.toNat) else (n * Nat.pow 2 (-e).toNat, d)

/-- The number of binary digits. -/
def bits (n : Nat) : Nat := if n = 0 then 0 else n.log2 + 1

/-- The number nearest to `n / d`, unless that is too large. -/
def ofRatio (n d : Nat) : Option Binary64 :=
  if n = 0 then some ⟨0, 0⟩
  else
    let guess : Int := (bits n : Int) - (bits d : Int) - 53
    let p := scaled n d guess
    let e := max (-1074) (if p.1 / p.2 < Nat.pow 2 53 then guess else guess + 1)
    let p := scaled n d e
    let m := roundDiv p.1 p.2
    let (m, e) := if m = Nat.pow 2 53 then (Nat.pow 2 52, e + 1) else (m, e)
    if 971 < e then none else some ⟨m, e⟩

/-- The number nearest to a decimal. Exponents far outside the range need no computation. -/
def ofDecimal (x : DecimalFloat) : Option Binary64 :=
  if x.digits = 0 then some ⟨0, 0⟩
  else
    let top : Int := x.exponent + (numeral 10 x.digits).length
    if 400 < top then none
    else if top < -400 then some ⟨0, 0⟩
    else if 0 ≤ x.exponent then ofRatio (x.digits * Nat.pow 10 x.exponent.toNat) 1
    else ofRatio x.digits (Nat.pow 10 (-x.exponent).toNat)

/-- The number as a quotient of naturals. -/
def toRatio (x : Binary64) : Nat × Nat :=
  if 0 ≤ x.exponent then (x.mantissa * Nat.pow 2 x.exponent.toNat, 1)
  else (x.mantissa, Nat.pow 2 (-x.exponent).toNat)

/-- The product of two numbers. -/
def mul (x y : Binary64) : Option Binary64 :=
  ofRatio (x.toRatio.1 * y.toRatio.1) (x.toRatio.2 * y.toRatio.2)

/-- The quotient of two numbers; the second one is not zero. -/
def div (x y : Binary64) : Option Binary64 :=
  ofRatio (x.toRatio.1 * y.toRatio.2) (x.toRatio.2 * y.toRatio.1)

/-- The decimal exponent of the leading digit of `n / d`, for a positive quotient. -/
def decimalTop (n d : Nat) : Int :=
  let guess : Int := ((numeral 10 n).length : Int) - ((numeral 10 d).length : Int)
  let reaches :=
    if 0 ≤ guess then d * Nat.pow 10 guess.toNat ≤ n else d ≤ n * Nat.pow 10 (-guess).toNat
  if reaches then guess else guess - 1

/-- The decimals of `k` digits around a number that round back to it, nearest first. -/
def candidates (x : Binary64) (k : Nat) : List DecimalFloat :=
  let (n, d) := x.toRatio
  let e : Int := decimalTop n d - ((k : Int) - 1)
  let (n, d) := if 0 ≤ e then (n, d * Nat.pow 10 e.toNat) else (n * Nat.pow 10 (-e).toNat, d)
  let q := n / d
  let r := n % d
  let around := if r = 0 then [q] else if 2 * r < d ∨ (2 * r = d ∧ q % 2 = 0) then [q, q + 1]
    else [q + 1, q]
  (around.map fun m => DecimalFloat.mk m e).filter fun y => ofDecimal y == some x

/-- The first decimal that rounds back, trying `k` digits and then more. -/
def shortestFrom (x : Binary64) (k : Nat) : Nat → DecimalFloat
  | 0 => ⟨0, 0⟩
  | fuel + 1 =>
    match candidates x k with
    | y :: _ => y
    | [] => shortestFrom x (k + 1) fuel

/-- Removes trailing zeros of the digits. -/
def normalise (x : DecimalFloat) : Nat → DecimalFloat
  | 0 => x
  | fuel + 1 =>
    if x.digits ≠ 0 ∧ x.digits % 10 = 0 then normalise ⟨x.digits / 10, x.exponent + 1⟩ fuel else x

/-- The shortest decimal that rounds back to a number. -/
def shortest (x : Binary64) : DecimalFloat :=
  if x.mantissa = 0 then ⟨0, 0⟩ else normalise (shortestFrom x 1 17) 17

end Binary64

namespace DecimalFloat

/-- Digits with zeros and a point, never an exponent; a whole number ends in `.0`. -/
def positional (x : DecimalFloat) : List Char :=
  let ds := numeral 10 x.digits
  let point : Int := ds.length + x.exponent
  if 0 ≤ x.exponent then ds ++ List.replicate x.exponent.toNat '0' ++ ['.', '0']
  else if 0 < point then ds.take point.toNat ++ '.' :: ds.drop point.toNat
  else '0' :: '.' :: List.replicate (-point).toNat '0' ++ ds

/-- Positional from `10 ^ (-5)` up to `10 ^ 16`, otherwise one digit, the point if more follow, and
the exponent. -/
def compact (x : DecimalFloat) : List Char :=
  let ds := numeral 10 x.digits
  let point : Int := ds.length + x.exponent
  if x.digits = 0 ∨ (-5 < point ∧ point ≤ 16) then x.positional
  else
    let fraction := if ds.length = 1 then [] else '.' :: ds.drop 1
    ds.take 1 ++ fraction ++ 'e' :: (decimal (point - 1)).toList

end DecimalFloat

end MarketingForm.Text
