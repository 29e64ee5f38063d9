/-!
The arithmetic the solvers are written over.

Every algorithm of this library is generic in its scalar: the same definitions run on double
precision and can be read over the real numbers. The class fixes operations only and states no
law, so a statement about an arbitrary scalar holds whatever the rounding is.

Two conventions matter to every caller. `maxNum` and `minNum` ignore an operand that is not a
number, and every comparison with such an operand fails. A sum starts from `-0`, the neutral
element of a signed-zero addition.
-/
namespace SmoothOpt

/-- The operations the solvers use on their scalars. -/
class Scalar (α : Type) extends Zero α, One α, Add α, Sub α, Mul α, Div α, Neg α, LE α, LT α,
    OfScientific α, NatCast α, IntCast α where
  /-- Comparisons are decided, with the meaning the scalar gives them. -/
  decLe : DecidableLE α
  decLt : DecidableLT α
  magnitude : α → α
  sqrt : α → α
  ln : α → α
  pow : α → α → α
  isFinite : α → Bool
  /-- A value that stands for an absent upper bound. -/
  infinity : α
  /-- Least natural number at or above the argument, zero when there is none. -/
  natCeil : α → Nat

namespace Scalar

variable {α : Type} [Scalar α]

instance : DecidableLE α := Scalar.decLe

instance : DecidableLT α := Scalar.decLt

/-- Whether a value is undefined: it does not even compare with itself. -/
def isUndefined (a : α) : Bool := !decide (a ≤ a)

/-- The larger of two numbers; an undefined operand is ignored. -/
def maxNum (a b : α) : α :=
  if isUndefined a then b else if isUndefined b then a else if a ≤ b then b else a

/-- The smaller of two numbers; an undefined operand is ignored. -/
def minNum (a b : α) : α :=
  if isUndefined a then b else if isUndefined b then a else if b ≤ a then b else a

/-- Numerical equality: both comparisons hold, so the two zeros agree and an undefined value
equals nothing. -/
def equals (a b : α) : Bool := decide (a ≤ b) && decide (b ≤ a)

/-- Left-to-right sum. -/
def sum (v : List α) : α := v.foldl (· + ·) (-0)

/-- Left-to-right product. -/
def product (v : List α) : α := v.foldl (· * ·) 1

end Scalar

end SmoothOpt
