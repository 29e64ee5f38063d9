import SmoothOpt.Barrier.Residual
import SmoothOpt.Linear.Solver

/-!
Constraint multipliers by least squares.

The estimate minimizes the dual infeasibility `‖b + J̃ᵀ y‖²` over `y`, where `J̃ = [Jc 0; Jd -I]`
and `b` collects the gradient and the bound multipliers. It solves the normal equations
`(J̃ J̃ᵀ + ε I) y = -J̃ b`.
-/
namespace SmoothOpt

open Scalar Linear

variable {α : Type} [Scalar α] {d : Dims}

def normalShift : α := 1e-12

/-- `[Jc 0; Jd -I]`. -/
def extendedJacobian (e : Evaluation α d) : Dense α (d.mEq + d.mIneq) (d.n + d.mIneq) :=
  let rowsEq : Dense α d.mEq (d.n + d.mIneq) :=
    Vector.map (· ++ Vector.replicate d.mIneq (0 : α)) e.jacEq
  let rowsIneq : Dense α d.mIneq (d.n + d.mIneq) := Vector.ofFn fun j =>
    e.jacIneq.get j ++ spike j (-1 : α)
  rowsEq ++ rowsIneq

/-- Gradient and bound multipliers: stationarity without the constraint multipliers. -/
def unmatchedGradient (e : Evaluation α d) (it : Iterate α d) (b : Bounds α d) :
    Vector α (d.n + d.mIneq) :=
  Block.pull b.x e.grad it.x.multLo it.x.multHi
    ++ Block.pull b.s (Vector.replicate _ 0) it.s.multLo it.s.multHi

variable [DenseSolver α]

/-- Least-squares multipliers; `none` if the normal equations cannot be solved. -/
def lsqEstimate (e : Evaluation α d) (it : Iterate α d) (b : Bounds α d) :
    Option (Vector α d.mEq × Vector α d.mIneq) :=
  if d.m = 0 then some (Vector.replicate _ 0, Vector.replicate _ 0)
  else
    let j := extendedJacobian e
    let normal := (j.mul j.transpose).add (Dense.diagonal (Vector.replicate _ normalShift))
    let rhs := (j.mulVec (unmatchedGradient e it b)).map (-·)
    match DenseSolver.solvePositive normal rhs with
    | none => none
    | some y =>
      if allFinite y.toList then some (firstPart y, lastPart y) else none

/-- Starting multipliers: the least-squares ones if they exist and none exceeds `maxNorm`. -/
def lsqStart (e : Evaluation α d) (it : Iterate α d) (b : Bounds α d) (maxNorm : α) :
    Option (Vector α d.mEq × Vector α d.mIneq) :=
  match lsqEstimate e it b with
  | none => none
  | some (yc, yd) =>
    if maxNum (infNorm yc.toList) (infNorm yd.toList) ≤ maxNorm then some (yc, yd) else none

namespace Iterate

def withConstraintMultipliers (it : Iterate α d) (y : Vector α d.mEq × Vector α d.mIneq) :
    Iterate α d :=
  { it with yc := y.1, yd := y.2 }

/-- Starting multipliers by least squares, zero where the estimate is rejected. -/
def startByLsq (it : Iterate α d) (e : Evaluation α d) (b : Bounds α d) (maxNorm : α) :
    Iterate α d :=
  it.withConstraintMultipliers
    ((lsqStart e it b maxNorm).getD (Vector.replicate _ 0, Vector.replicate _ 0))

/-- Refresh the constraint multipliers after a step of length `alpha`. A least-squares estimate
that fails is replaced by the Newton step, and the flag tells so. -/
def refreshMultipliers (kind : MultiplierUpdate) (it : Iterate α d) (e : Evaluation α d)
    (b : Bounds α d) (dir : Direction α d) (alpha : α) : Iterate α d × Bool :=
  match kind with
  | .newton => (it.takeConstraintStep dir alpha, false)
  | .lsq => match lsqEstimate e it b with
    | some y => (it.withConstraintMultipliers y, false)
    | none => (it.takeConstraintStep dir alpha, true)

end Iterate

end SmoothOpt
