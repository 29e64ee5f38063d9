import SmoothOpt.Scalar

/-!
The filter of a line search: pairs of constraint violation and barrier objective that trial points
have to improve on. Pairs are added within one barrier phase, and the filter is emptied when the
barrier parameter changes.
-/
namespace SmoothOpt

/-- Recorded pairs `(theta, phi)`, oldest first, with the margins of the dominance test. -/
structure Filter (α : Type) where
  entries : List (α × α)
  gammaTheta : α
  gammaPhi : α

namespace Filter

variable {α : Type}

def empty (gammaTheta gammaPhi : α) : Filter α := ⟨[], gammaTheta, gammaPhi⟩

def clear (f : Filter α) : Filter α := { f with entries := [] }

def add (f : Filter α) (theta phi : α) : Filter α :=
  { f with entries := f.entries ++ [(theta, phi)] }

def size (f : Filter α) : Nat := f.entries.length

variable [Scalar α]

/-- Some pair is better up to its margins in both measures. -/
def dominates (f : Filter α) (theta phi : α) : Bool :=
  f.entries.any fun (thetaJ, phiJ) =>
    decide ((1 - f.gammaTheta) * thetaJ ≤ theta) && decide (phiJ - f.gammaPhi * thetaJ ≤ phi)

end Filter

end SmoothOpt
