import SmoothOpt.Settings

/-!
Multiplier and penalty updates of the augmented Lagrangian loop.
-/
namespace SmoothOpt.Penalty

open Scalar

variable {α : Type} [Scalar α]

/-- First-order update `λ + p / ρ` of one multiplier per penalty entry. -/
def updatedMultipliers {m : Nat} (lambda penalty : Vector α m) (rho : α) : Vector α m :=
  Vector.zipWith (fun l p => l + p / rho) lambda penalty

/-- The next penalty parameter. It never decreases, and bounded growth keeps it below the cap once
it is there. -/
def updatedPenalty (growth : PenaltyGrowth) (rho increase rhoMax : α) : α :=
  match growth with
  | .boundedGeometric => maxNum (minNum (increase * rho) rhoMax) rho
  | .saturating => maxNum (increase * rho) rhoMax

end SmoothOpt.Penalty
