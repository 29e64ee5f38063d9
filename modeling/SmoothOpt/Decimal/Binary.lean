/-!
The exact value of a double.

A finite double is `± mantissa * 2 ^ exponent` with natural `mantissa`; everything that writes a
number starts from this form and stays in exact integer arithmetic.
-/
namespace SmoothOpt.Decimal

def twoPow (k : Nat) : Nat := Nat.pow 2 k

def tenPow (k : Nat) : Nat := Nat.pow 10 k

/-- A positive dyadic number `mantissa * 2 ^ exponent`. -/
structure Dyadic where
  mantissa : Nat
  exponent : Int
  deriving DecidableEq, Repr

inductive Reading where
  | undefined
  | infinite (negative : Bool)
  | zero (negative : Bool)
  | finite (negative : Bool) (value : Dyadic)
  deriving DecidableEq, Repr

/-- The reading of a 64-bit pattern: sign bit, eleven exponent bits, fifty-two fraction bits. -/
def Reading.ofBits (bits : UInt64) : Reading :=
  let b := bits.toNat
  let negative : Bool := twoPow 63 ≤ b
  let biased : Nat := b / twoPow 52 % twoPow 11
  let fraction : Nat := b % twoPow 52
  if biased = 2047 then
    if fraction = 0 then .infinite negative else .undefined
  else if biased = 0 then
    if fraction = 0 then .zero negative else .finite negative ⟨fraction, -1074⟩
  else .finite negative ⟨twoPow 52 + fraction, (biased : Int) - 1075⟩

def Reading.ofFloat (x : Float) : Reading := .ofBits x.toBits

def Dyadic.fraction (v : Dyadic) : Nat × Nat :=
  if 0 ≤ v.exponent then (v.mantissa * twoPow v.exponent.toNat, 1)
  else (v.mantissa, twoPow (-v.exponent).toNat)

end SmoothOpt.Decimal
