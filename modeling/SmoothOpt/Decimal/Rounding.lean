import SmoothOpt.Decimal.Binary

/-!
Rounding an exact binary value to a decimal grid, a half going to the even neighbour.
-/
namespace SmoothOpt.Decimal

/-- A decimal number `coefficient * 10 ^ exponent`. -/
structure Digits where
  coefficient : Nat
  exponent : Int
  deriving DecidableEq, Repr

/-- Nearest integer to `num / den`; of two equally near ones, the even one. -/
def roundDiv (num den : Nat) : Nat :=
  let q := num / den
  let twice := 2 * (num % den)
  if den < twice || (twice == den && q % 2 == 1) then q + 1 else q

/-- `num / den` divided by `10 ^ e`, as a fraction. -/
def shift (num den : Nat) (e : Int) : Nat × Nat :=
  if 0 ≤ e then (num, den * tenPow e.toNat) else (num * tenPow (-e).toNat, den)

/-- Number of decimal digits of a natural number. The binary logarithm gives the count up to one,
and comparing with powers of ten settles it. -/
def digitCount (n : Nat) : Nat :=
  let guess := n.log2 * 30103 / 100000
  if guess ≠ 0 ∧ n < tenPow guess then guess
  else if n < tenPow (guess + 1) then guess + 1
  else guess + 2

/-- The exponent of the leading decimal digit of a positive double: the value lies between
`10 ^ e` and `10 ^ (e + 1)`. No double is below `10 ^ -400`. -/
def Dyadic.leading (v : Dyadic) : Int :=
  let (num, den) := v.fraction
  (digitCount (num * tenPow 400 / den) : Int) - 401

/-- The value rounded to a multiple of `10 ^ e`. -/
def Dyadic.roundAt (v : Dyadic) (e : Int) : Digits :=
  let (num, den) := v.fraction
  let (num, den) := shift num den e
  ⟨roundDiv num den, e⟩

/-- The value rounded to `count` significant digits. A carry into a new leading digit keeps the
digit count. -/
def Dyadic.significant (v : Dyadic) (count : Nat) : Digits :=
  let r := v.roundAt (v.leading - count + 1)
  if r.coefficient = tenPow count then ⟨tenPow (count - 1), r.exponent + 1⟩ else r

/-- Drop trailing zeros of a coefficient with at most `budget` digits. -/
def Digits.trimUpTo : Nat → Digits → Digits
  | 0, d => d
  | budget + 1, d =>
    if d.coefficient ≠ 0 ∧ d.coefficient % 10 = 0 then
      trimUpTo budget ⟨d.coefficient / 10, d.exponent + 1⟩
    else d

def Digits.trim (d : Digits) : Digits := d.trimUpTo (digitCount d.coefficient)

end SmoothOpt.Decimal
