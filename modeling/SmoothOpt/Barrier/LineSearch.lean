import SmoothOpt.Barrier.Filter
import SmoothOpt.Failure
import SmoothOpt.Settings
import SmoothOpt.Step

/-!
Backtracking line search against a filter.

A trial point is rejected when its violation exceeds a cap or the filter dominates it. Otherwise
it has to pass one of two tests. If the current point is nearly feasible and the slope promises
more than the violation is worth, the trial needs an Armijo decrease of the barrier objective.
Otherwise it needs a sufficient decrease of the violation or of the objective.
-/
namespace SmoothOpt

open Scalar

inductive StepKind where
  | armijo
  /-- Sufficient decrease of violation or objective; the filter grows. -/
  | filter
  /-- Below numerical resolution, taken untested. -/
  | tiny
  deriving DecidableEq, Repr

structure Accepted (α : Type) where
  alpha : α
  kind : StepKind
  backtracks : Nat

/-- Violation and barrier objective of a point. -/
structure Measures (α : Type) where
  theta : α
  phi : α

structure Rejection (α : Type) where
  alpha : α
  current : Measures α
  trial : Measures α

structure LineSearch (α : Type) where
  thetaMin : α
  thetaMax : α
  gammaTheta : α
  gammaPhi : α
  sTheta : α
  sPhi : α
  delta : α
  etaPhi : α
  gammaAlpha : α
  maxBacktracks : Nat

namespace LineSearch

variable {α : Type} [Scalar α]

/-- Parameters for a run that starts with violation `theta0`. -/
def ofSettings (s : InteriorSettings α) (theta0 : α) : LineSearch α where
  thetaMin := 1e-4 * maxNum theta0 1
  thetaMax := 1e4 * maxNum theta0 1
  gammaTheta := s.gammaTheta
  gammaPhi := s.gammaPhi
  sTheta := s.sTheta
  sPhi := s.sPhi
  delta := s.delta
  etaPhi := s.etaPhi
  gammaAlpha := s.gammaAlpha
  maxBacktracks := s.maxBacktracks

def alphaMin (l : LineSearch α) (theta slope : α) : α :=
  let base :=
    if slope < 0 then
      let a := minNum l.gammaTheta (l.gammaPhi * theta / -slope)
      if theta ≤ l.thetaMin then
        minNum a (l.delta * pow theta l.sTheta / pow (-slope) l.sPhi)
      else a
    else l.gammaTheta
  l.gammaAlpha * base

/-- The slope promises more than the violation is worth. -/
def switching (l : LineSearch α) (alpha theta slope : α) : Bool :=
  decide (slope < 0) &&
    decide (l.delta * pow theta l.sTheta < alpha * pow (-slope) l.sPhi)

def accept (l : LineSearch α) (filter : Filter α) (current trial : Measures α)
    (alpha slope : α) : Option StepKind :=
  if !decide (trial.theta ≤ l.thetaMax) || !isFinite trial.phi then none
  else if filter.dominates trial.theta trial.phi then none
  else if current.theta ≤ l.thetaMin ∧ l.switching alpha current.theta slope then
    if trial.phi ≤ current.phi + l.etaPhi * alpha * slope then some .armijo else none
  else if trial.theta ≤ (1 - l.gammaTheta) * current.theta
      ∨ trial.phi ≤ current.phi - l.gammaPhi * current.theta then some .filter
  else none

/-- Halve the step length until a trial is accepted, with `left` trials to go. `trial` measures
the point at a step length, `onReject` is told of every rejected one. -/
def backtrackFrom {τ : Type} (l : LineSearch α) (filter : Filter α) (current : Measures α)
    (slope : α) (trial : α → Step (Failure α) τ (Measures α)) (onReject : Rejection α → τ → τ) :
    Nat → Nat → α → Step (Failure α) τ (Accepted α)
  | 0, _, alpha => throw (.lineSearch alpha)
  | left + 1, backtracks, alpha => do
    let measured ← trial alpha
    match l.accept filter current measured alpha slope with
    | some kind => return ⟨alpha, kind, backtracks⟩
    | none =>
      modify (onReject ⟨alpha, current, measured⟩)
      let next := alpha * 0.5
      if next < l.alphaMin current.theta slope then throw (.lineSearch next)
      else backtrackFrom l filter current slope trial onReject left (backtracks + 1) next

/-- Search from step length `alphaMax` on. Fails with the next step length once that is below the
minimum or the budget of trials is spent. -/
def backtrack {τ : Type} (l : LineSearch α) (filter : Filter α) (alphaMax : α)
    (current : Measures α) (slope : α) (trial : α → Step (Failure α) τ (Measures α))
    (onReject : Rejection α → τ → τ) : Step (Failure α) τ (Accepted α) :=
  l.backtrackFrom filter current slope trial onReject (l.maxBacktracks + 1) 0 alphaMax

end LineSearch

end SmoothOpt
