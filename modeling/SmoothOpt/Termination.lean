import SmoothOpt.Settings
import SmoothOpt.Status

/-!
Layered stopping tests shared by both solvers, in order of priority:

1. every error is at most the tolerance;
2. the iteration budget is spent;
3. every error is at most the relative tolerance times its starting value, if that test is on;
4. every error has been at most the acceptable tolerance for the required number of checks.

The interior point method feeds one error, the augmented Lagrangian loop feeds two.
-/
namespace SmoothOpt

/-- Stopping parameters together with the starting errors and the current run of acceptable
checks. -/
structure Termination (α : Type) where
  tolerance : α
  relTolerance : α
  acceptableTolerance : α
  maxIter : Nat
  acceptableIterations : Nat
  initialErrors : List α := []
  acceptableCount : Nat := 0

namespace Termination

variable {α : Type}

def ofInterior (s : InteriorSettings α) : Termination α where
  tolerance := s.tolerance
  relTolerance := s.relTolerance
  acceptableTolerance := s.acceptableTolerance
  maxIter := s.maxIter
  acceptableIterations := s.acceptableIterations

def ofPenalty (s : PenaltySettings α) : Termination α where
  tolerance := s.tolerance
  relTolerance := s.relTolerance
  acceptableTolerance := s.acceptableTolerance
  maxIter := s.maxIter
  acceptableIterations := s.acceptableIterations

/-- Take the given errors as the reference of the relative test. -/
def recordInitial (t : Termination α) (errors : List α) : Termination α :=
  { t with initialErrors := errors, acceptableCount := 0 }

variable [Scalar α]

def allWithin (errors : List α) (bound : α) : Bool := errors.all fun e => decide (e ≤ bound)

def relativelySmall (t : Termination α) (errors : List α) : Bool :=
  decide (0 < t.relTolerance) && t.initialErrors.length == errors.length &&
    (errors.zip t.initialErrors).all fun (e, e0) => decide (e ≤ t.relTolerance * e0)

def decisive (t : Termination α) (errors : List α) (iter : Nat) : Option Status :=
  if allWithin errors t.tolerance then some .success
  else if t.maxIter ≤ iter then some .maxIterExceeded
  else if t.relativelySmall errors then some .successRelTol
  else none

/-- The length of the run of acceptable checks after one more. -/
def nextCount (t : Termination α) (errors : List α) : Nat :=
  if allWithin errors t.acceptableTolerance then t.acceptableCount + 1 else 0

/-- One check: whether and how to stop, and the updated count. A check decided by one of the first
three tests leaves the count alone. -/
def check (t : Termination α) (errors : List α) (iter : Nat) : Option Status × Termination α :=
  match t.decisive errors iter with
  | some status => (some status, t)
  | none =>
    let t' := { t with acceptableCount := t.nextCount errors }
    if 0 < t.acceptableIterations ∧ t.acceptableIterations ≤ t'.acceptableCount then
      (some .acceptableLevel, t')
    else (none, t')

end Termination

end SmoothOpt
