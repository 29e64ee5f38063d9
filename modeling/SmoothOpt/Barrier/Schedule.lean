import SmoothOpt.Settings

/-!
Decrease of the barrier parameter: linear at first, superlinear near the end, and never below a
tenth of the tolerance.
-/
namespace SmoothOpt

open Scalar

structure Schedule (α : Type) where
  kappaMu : α
  thetaMu : α
  tauMin : α
  kappaEps : α
  muMin : α

namespace Schedule

variable {α : Type} [Scalar α]

def ofSettings (s : InteriorSettings α) : Schedule α where
  kappaMu := s.kappaMu
  thetaMu := s.thetaMu
  tauMin := s.tauMin
  kappaEps := s.kappaEps
  muMin := s.tolerance / 10.0

/-- Fraction-to-boundary parameter that belongs to a barrier parameter. -/
def tau (c : Schedule α) (mu : α) : α := maxNum c.tauMin (1 - mu)

/-- The barrier subproblem is solved well enough to go on. -/
def subproblemSolved (c : Schedule α) (error mu : α) : Bool := decide (error ≤ c.kappaEps * mu)

/-- The barrier parameter after `mu`. -/
def next (c : Schedule α) (mu : α) : α :=
  maxNum c.muMin (minNum (c.kappaMu * mu) (pow mu c.thetaMu))

/-- A bound on the number of decreases from `mu` on. Each is by the factor `kappaMu` at least, so
the floor is met after `ln (mu / muMin) / -ln kappaMu` of them; and no strictly decreasing chain of
64-bit numbers is longer than their count. -/
def budget (c : Schedule α) (mu : α) : Nat :=
  natCeil (ln (mu / c.muMin) / -ln c.kappaMu) + 18446744073709551616

end Schedule

end SmoothOpt
