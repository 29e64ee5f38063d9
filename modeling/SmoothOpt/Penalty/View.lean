import SmoothOpt.Problem.Bounds
import SmoothOpt.Problem.Evaluation

/-!
The bound-constrained view of a problem that the augmented Lagrangian loop solves.

The inequality bodies get slacks `s`, so that every general constraint is an entry of the penalty
vector `p(x, s) = (c(x), d(x) - s)`, and the subproblem in `z = (x, s)` is

    minimize f(x) + λᵀ p + ρ/2 ‖p‖²  subject to  xl ≤ x ≤ xu,  dl ≤ s ≤ du.
-/
namespace SmoothOpt.Penalty

open Scalar Linear

/-- Sizes of the subproblem: variables and slacks, no general constraints. -/
abbrev boxed (d : Dims) : Dims := ⟨d.n + d.mIneq, 0, 0⟩

abbrev entryCount (d : Dims) : Nat := d.mEq + d.mIneq

structure View (α : Type) (d : Dims) where
  box : Box α (d.n + d.mIneq)
  start : Vector α (d.n + d.mIneq)
  lambda : Vector α (entryCount d)
  rho : α

variable {α σ : Type} [Scalar α] {d : Dims}

def variablePart (z : Vector α (d.n + d.mIneq)) : Vector α d.n := firstPart z

def slackPart (z : Vector α (d.n + d.mIneq)) : Vector α d.mIneq := lastPart z

def equalityPart (y : Vector α (entryCount d)) : Vector α d.mEq := firstPart y

def inequalityPart (y : Vector α (entryCount d)) : Vector α d.mIneq := lastPart y

/-- A value brought into the present bounds. -/
def clampTo (lo hi : Bound α) (v : α) : α :=
  let v := if lo.present then maxNum v lo.value else v
  if hi.present then minNum v hi.value else v

def penaltyVector (e : Evaluation α d) (z : Vector α (d.n + d.mIneq)) : Vector α (entryCount d) :=
  e.eq ++ Vector.zipWith (· - ·) e.ineq (slackPart z)

namespace View

/-- The view of validated bounds before any subproblem. -/
def ofBounds (b : Bounds α d) : View α d where
  box := ⟨b.x.lower ++ b.s.lower, b.x.upper ++ b.s.upper⟩
  start := Vector.replicate _ 0
  lambda := Vector.replicate _ 0
  rho := 1

def create (p : Problem α σ d) (inner : InteriorSettings α) :
    StateM σ (Except (ProblemFault α) (View α d)) := fun w =>
  match Dims.validate d with
  | .error cause => (.error cause, w)
  | .ok () =>
    let (bounds, w) := (Bounds.ofProblem p (.ofSettings inner)).run w
    (bounds.map ofBounds, w)

/-- First-order multiplier estimate `λ + ρ p`. -/
def multiplierEstimate (v : View α d) (penalty : Vector α (entryCount d)) :
    Vector α (entryCount d) :=
  Vector.zipWith (fun l p => l + v.rho * p) v.lambda penalty

def meritGradient (v : View α d) (e : Evaluation α d) (penalty : Vector α (entryCount d)) :
    Vector α (d.n + d.mIneq) :=
  let y := v.multiplierEstimate penalty
  e.lagrangianGradient (equalityPart y) (inequalityPart y) ++ (inequalityPart y).map (-·)

def merit (v : View α d) (e : Evaluation α d) (penalty : Vector α (entryCount d)) : α :=
  e.f + Dense.inner v.lambda penalty + 0.5 * v.rho * Dense.inner penalty penalty

/-- Hessian of the augmented Lagrangian from the user's Hessian at the estimated multipliers:
`w (H + ρ JᵀJ)` in the variables, `-w ρ Jdᵀ` between variables and slacks, `w ρ I` in the
slacks. -/
def meritHessian (v : View α d) (e : Evaluation α d) (hess : Dense α d.n d.n) (weight : α) :
    Dense α (d.n + d.mIneq) (d.n + d.mIneq) :=
  let squares := (e.jacEq.transpose.mul e.jacEq).add (e.jacIneq.transpose.mul e.jacIneq)
  let xx := (hess.add (squares.scale v.rho)).scale weight
  let xs := e.jacIneq.transpose.scale (-v.rho * weight)
  let rowsX : Dense α d.n (d.n + d.mIneq) := Vector.zipWith (· ++ ·) xx xs
  let rowsS : Dense α d.mIneq (d.n + d.mIneq) := Vector.ofFn fun j =>
    xs.column j ++ spike j (v.rho * weight)
  rowsX ++ rowsS

/-- Evaluate the user's problem at the variables of a point, from scratch. -/
def evaluateAt (p : Problem α σ d) (z : Vector α (d.n + d.mIneq)) (derivatives : Bool) :
    StateM σ (Option (Evaluation α d × Vector α (entryCount d))) := fun w =>
  let x := variablePart z
  let step := if derivatives then Evaluation.all p x else Evaluation.funcs p x
  match step.outcome (.blank, w) with
  | (.ok (), (e, w)) => (some (e, penaltyVector e z), w)
  | (.error _, (_, w)) => (none, w)

/-- The subproblem: callbacks that evaluate the user's problem and combine the values. -/
def problem (v : View α d) (p : Problem α σ d) : Problem α σ (boxed d) where
  variableBounds := pure (.good
    (v.box.lower.map fun b => if b.present then b.value else -infinity,
     v.box.upper.map fun b => if b.present then b.value else infinity))
  inequalityBounds := pure (.silent true)
  start := pure (.good v.start)
  objective := fun z _ => do
    match ← evaluateAt p z false with
    | none => return .silent false
    | some (e, penalty) =>
      let f := v.merit e penalty
      return ⟨some f, isFinite f⟩
  gradient := fun z _ => do
    match ← evaluateAt p z true with
    | none => return .silent false
    | some (e, penalty) => return .good (v.meritGradient e penalty)
  equalities := fun _ _ => pure (.silent true)
  inequalities := fun _ _ => pure (.silent true)
  equalityJacobian := fun _ _ => pure (.silent true)
  inequalityJacobian := fun _ _ => pure (.silent true)
  providesHessian := p.providesHessian
  hessian := fun z _ weight _ _ => do
    match ← evaluateAt p z true with
    | none => return .silent false
    | some (e, penalty) =>
      let y := v.multiplierEstimate penalty
      let reply ← p.hessian (variablePart z) false 1 (equalityPart y) (inequalityPart y)
      if !reply.ok then return .silent false
      let hess := v.meritHessian e (reply.onto Dense.zeros) weight
      return ⟨some hess, allFinite hess.entries⟩

/-- The user's starting point over the point `z`, with slacks at the inequality bodies brought
into their bounds. The flag tells whether everything succeeded; what was written stays. -/
def userStart (v : View α d) (p : Problem α σ d) (z : Vector α (d.n + d.mIneq)) :
    StateM σ (Bool × Vector α (d.n + d.mIneq)) := do
  let reply ← p.start
  let x := reply.onto (variablePart z)
  if !reply.ok || !allFinite x.toList then return (false, x ++ slackPart z)
  let body ← p.inequalities x true
  let s := body.onto (slackPart z)
  if !body.ok || !allFinite s.toList then return (false, x ++ s)
  let lower : Vector (Bound α) d.mIneq := lastPart v.box.lower
  let upper : Vector (Bound α) d.mIneq := lastPart v.box.upper
  return (true, x ++ Vector.ofFn fun j => clampTo (lower.get j) (upper.get j) (s.get j))

/-- The user's objective at a point; `old` is what an unwritten objective holds. -/
def userObjective (p : Problem α σ d) (z : Vector α (d.n + d.mIneq)) (old : α) :
    StateM σ (Bool × α) := do
  let reply ← p.objective (variablePart z) true
  let f := reply.onto old
  return (reply.ok && isFinite f, f)

/-- `z - P(z - g)` for the projection `P` into the box; it vanishes at a stationary point. -/
def projectedGradient (v : View α d) (z g : Vector α (d.n + d.mIneq)) :
    Vector α (d.n + d.mIneq) :=
  Vector.ofFn fun i =>
    z.get i - clampTo (v.box.lower.get i) (v.box.upper.get i) (z.get i - g.get i)

/-- Penalty vector and projected gradient at a point, `none` if an evaluation fails. -/
def residuals (v : View α d) (p : Problem α σ d) (z : Vector α (d.n + d.mIneq)) :
    StateM σ (Option (Vector α (entryCount d) × Vector α (d.n + d.mIneq))) := do
  match ← evaluateAt p z true with
  | none => return none
  | some (e, penalty) =>
    return some (penalty, v.projectedGradient z (v.meritGradient e penalty))

end View

end SmoothOpt.Penalty
