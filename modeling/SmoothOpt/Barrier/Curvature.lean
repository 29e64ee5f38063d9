import SmoothOpt.Problem.Evaluation

/-!
The Hessian of the Lagrangian: exact, or a damped quasi-Newton approximation.

A quasi-Newton pair is `s = x⁺ - x` and `y = ∇L(x⁺) - ∇L(x)`, both gradients taken with the newest
constraint multipliers. Damping keeps the approximation positive definite whatever the pair.
-/
namespace SmoothOpt

open Scalar Linear

variable {α σ : Type} {d : Dims}

/-- Curvature at or below this is not used. -/
def minCurvature [Scalar α] : α := 1e-12

def damping [Scalar α] : α := 0.2

structure QuasiNewton (α : Type) (n : Nat) where
  matrix : Dense α n n
  scaled : Bool
  skipped : Nat

namespace QuasiNewton

variable [Scalar α] {n : Nat}

def initial : QuasiNewton α n := ⟨Dense.identity, false, 0⟩

/-- Before the first useful pair the unit matrix is scaled to the curvature of that pair. -/
def rescaled (q : QuasiNewton α n) (s y : Vector α n) : QuasiNewton α n :=
  let sy := Dense.inner s y
  if !q.scaled && decide (minCurvature < sy) then
    { q with matrix := Dense.identity.scale (Dense.inner y y / sy), scaled := true }
  else q

/-- The gradient change blended with `B s` as far as positive curvature demands. -/
def dampedChange (y bs : Vector α n) (sy sbs : α) : Vector α n :=
  let theta := if damping * sbs ≤ sy then 1 else (1 - damping) * sbs / (sbs - sy)
  Vector.zipWith (fun yi bi => yi * theta + bi * (1 - theta)) y bs

/-- Update with the pair `(s, y)`; pairs without curvature are skipped. -/
def update (q : QuasiNewton α n) (s y : Vector α n) : QuasiNewton α n :=
  let q := q.rescaled s y
  let skip : QuasiNewton α n := { q with skipped := q.skipped + 1 }
  let bs := q.matrix.mulVec s
  let sbs := Dense.inner s bs
  if sbs ≤ minCurvature then skip
  else
    let r := dampedChange y bs (Dense.inner s y) sbs
    let sr := Dense.inner s r
    if sr ≤ minCurvature then skip
    else
      let grown := (Dense.outer r r).map (· / sr)
      let shrunk := (Dense.outer bs bs).map (· / sbs)
      { q with matrix := q.matrix.add (grown.sub shrunk) }

end QuasiNewton

/-- Where the Hessian comes from. -/
inductive Curvature (α : Type) (d : Dims) where
  | exact (hess : Dense α d.n d.n)
  /-- An approximation and the point of its last update. -/
  | quasiNewton (q : QuasiNewton α d.n) (last : Option (Vector α d.n × Evaluation α d))

namespace Curvature

def isExact : Curvature α d → Bool
  | exact _ => true
  | quasiNewton .. => false

def matrix : Curvature α d → Dense α d.n d.n
  | exact hess => hess
  | quasiNewton q _ => q.matrix

variable [Scalar α]

def initial (useExact : Bool) : Curvature α d :=
  if useExact then exact Dense.zeros else quasiNewton .initial none

def advance (q : QuasiNewton α d.n) (last : Option (Vector α d.n × Evaluation α d))
    (x : Vector α d.n) (e : Evaluation α d) (yc : Vector α d.mEq) (yd : Vector α d.mIneq) :
    Curvature α d :=
  match last with
  | none => quasiNewton q (some (x, e))
  | some (x0, e0) =>
    let s := Vector.zipWith (· - ·) x x0
    let y := Vector.zipWith (· - ·) (e.lagrangianGradient yc yd) (e0.lagrangianGradient yc yd)
    quasiNewton (q.update s y) (some (x, e))

/-- Refresh the matrix at `x`, where the derivatives have been evaluated. -/
def refresh (p : Problem α σ d) (x : Vector α d.n) (e : Evaluation α d) (yc : Vector α d.mEq)
    (yd : Vector α d.mIneq) : Step Quantity (Curvature α d × σ) Unit :=
  .ofOutcome fun (k, w) =>
    match k with
    | quasiNewton q last => (.ok (), (advance q last x e yc yd, w))
    | exact _ =>
      let (reply, w') := (p.hessian x false 1 yc yd).run w
      let hess := reply.onto Dense.zeros
      (if reply.ok && allFinite hess.entries then .ok () else .error .hessian, (exact hess, w'))

end Curvature

end SmoothOpt
