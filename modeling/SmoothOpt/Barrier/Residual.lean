import SmoothOpt.Barrier.Iterate
import SmoothOpt.Problem.Evaluation

/-!
Residuals of the optimality conditions and scaled error measures.

Stationarity refers to the Lagrangian
`f + ycᵀ c + ydᵀ (d(x) - s) - zlᵀ(x - xl) - zuᵀ(xu - x) - vlᵀ(s - dl) - vuᵀ(du - s)`. The overall
error divides optimality and complementarity by scalings that exceed one only when the average
multiplier is larger than a threshold.
-/
namespace SmoothOpt

open Scalar Linear

variable {α : Type} [Scalar α] {d : Dims}

/-- Largest `|s z - mu|` over the present bounds. -/
def complementarity (it : Iterate α d) (b : Bounds α d) (mu : α) : α :=
  maxNum (maxNum (maxNum
    (maskedComplementarity it.x.slackLo.toList it.x.multLo.toList b.x.hasLower mu)
    (maskedComplementarity it.x.slackHi.toList it.x.multHi.toList b.x.hasUpper mu))
    (maskedComplementarity it.s.slackLo.toList it.s.multLo.toList b.s.hasLower mu))
    (maskedComplementarity it.s.slackHi.toList it.s.multHi.toList b.s.hasUpper mu)

structure Residual (α : Type) (d : Dims) where
  /-- `∇f + Jcᵀ yc + Jdᵀ yd - zl + zu`. -/
  rx : Vector α d.n
  /-- `-yd - vl + vu`. -/
  rs : Vector α d.mIneq
  /-- `c(x)`. -/
  rc : Vector α d.mEq
  /-- `d(x) - s`. -/
  rd : Vector α d.mIneq
  nlpOptim : α
  nlpFeas : α
  nlpComplem : α
  nlpOverall : α
  barOptim : α
  barFeas : α
  barComplem : α
  barOverall : α
  sd : α
  sc : α

/-- Scaling of an error by the average of `count` multipliers with sum `total`. -/
def multiplierScale (pSmax total : α) (count : Nat) : α :=
  if 0 < count then maxNum pSmax (total / (count : α)) / pSmax else 1

namespace Residual

def blank : Residual α d where
  rx := Vector.replicate _ 0
  rs := Vector.replicate _ 0
  rc := Vector.replicate _ 0
  rd := Vector.replicate _ 0
  nlpOptim := 0
  nlpFeas := 0
  nlpComplem := 0
  nlpOverall := 0
  barOptim := 0
  barFeas := 0
  barComplem := 0
  barOverall := 0
  sd := 0
  sc := 0

def withBarrier (r : Residual α d) (it : Iterate α d) (b : Bounds α d) (mu : α) : Residual α d :=
  let complem := complementarity it b mu
  { r with
    barComplem := complem
    barOverall := maxNum (maxNum (r.barOptim / r.sd) r.barFeas) (complem / r.sc) }

def compute (it : Iterate α d) (e : Evaluation α d) (b : Bounds α d) (mu pSmax : α) :
    Residual α d :=
  let rx := Block.pull b.x (e.lagrangianGradient it.yc it.yd) it.x.multLo it.x.multHi
  let rs := Block.pull b.s (it.yd.map (-·)) it.s.multLo it.s.multHi
  let rd := Vector.zipWith (· - ·) e.ineq it.s.point
  let optim := maxNum (infNorm rx.toList) (infNorm rs.toList)
  let feas := maxNum (infNorm e.eq.toList) (infNorm rd.toList)
  let complem := complementarity it b 0
  let zNorm := maskedOneNorm it.x.multLo.toList b.x.hasLower
    + maskedOneNorm it.x.multHi.toList b.x.hasUpper
    + maskedOneNorm it.s.multLo.toList b.s.hasLower
    + maskedOneNorm it.s.multHi.toList b.s.hasUpper
  let yNorm := oneNorm it.yc.toList + oneNorm it.yd.toList
  let sd := multiplierScale pSmax (yNorm + zNorm) (d.m + b.count)
  let sc := multiplierScale pSmax zNorm b.count
  withBarrier
    { rx := rx, rs := rs, rc := e.eq, rd := rd
      nlpOptim := optim, nlpFeas := feas, nlpComplem := complem
      nlpOverall := maxNum (maxNum (optim / sd) feas) (complem / sc)
      barOptim := optim, barFeas := feas, barComplem := 0, barOverall := 0
      sd := sd, sc := sc } it b mu

end Residual

/-- Constraint violation `‖c(x)‖₁ + ‖d(x) - s‖₁`. -/
def violation (e : Evaluation α d) (it : Iterate α d) : α :=
  oneNorm e.eq.toList + oneNorm (Vector.zipWith (· - ·) e.ineq it.s.point).toList

/-- Log-barrier objective `f - mu Σ ln s`. -/
def barrierObjective (e : Evaluation α d) (it : Iterate α d) (b : Bounds α d) (mu : α) : α :=
  let logs := maskedLogSum it.x.slackLo.toList b.x.hasLower
    + maskedLogSum it.x.slackHi.toList b.x.hasUpper
    + maskedLogSum it.s.slackLo.toList b.s.hasLower
    + maskedLogSum it.s.slackHi.toList b.s.hasUpper
  e.f - mu * logs

/-- A gradient with the derivatives of the logarithms added. -/
def Block.barrierPull {n : Nat} (k : Block α n) (b : Box α n) (base : Vector α n) (mu : α) :
    Vector α n :=
  Block.pull b base (k.slackLo.map (mu / ·)) (k.slackHi.map (mu / ·))

/-- Slope of the barrier objective along the primal part of a direction. -/
def barrierSlope (e : Evaluation α d) (it : Iterate α d) (dir : Direction α d) (b : Bounds α d)
    (mu : α) : α :=
  let gx := it.x.barrierPull b.x e.grad mu
  let gs := it.s.barrierPull b.s (Vector.replicate _ 0) mu
  let products := List.zipWith (· * ·) (gx.toList ++ gs.toList)
    (dir.x.point.toList ++ dir.s.point.toList)
  products.foldl (· + ·) 0

/-- Gradients of the barrier Lagrangian in the variables and in the slacks, the negated right-hand
sides of the Newton system. -/
def barrierGradients (e : Evaluation α d) (it : Iterate α d) (b : Bounds α d) (mu : α) :
    Vector α d.n × Vector α d.mIneq :=
  (it.x.barrierPull b.x (e.lagrangianGradient it.yc it.yd) mu,
   it.s.barrierPull b.s (it.yd.map (-·)) mu)

end SmoothOpt
