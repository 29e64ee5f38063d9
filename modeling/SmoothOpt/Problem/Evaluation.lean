import SmoothOpt.Linear.Norm
import SmoothOpt.Problem
import SmoothOpt.Step

/-!
Function and derivative values of a problem at one point.

The objective is always asked for first, with the flag that announces a new point; the constraint
bodies and the derivatives follow at the same point. A failed callback or a value that is not
finite ends the evaluation, and what was written before stays.
-/
namespace SmoothOpt

open Scalar Linear

variable {α σ : Type} {d : Dims}

structure Evaluation (α : Type) (d : Dims) where
  f : α
  eq : Vector α d.mEq
  /-- Inequality bodies `d(x)`, not the slack variables. -/
  ineq : Vector α d.mIneq
  grad : Vector α d.n
  jacEq : Dense α d.mEq d.n
  jacIneq : Dense α d.mIneq d.n

namespace Evaluation

variable [Scalar α]

def blank : Evaluation α d where
  f := 0
  eq := Vector.replicate _ 0
  ineq := Vector.replicate _ 0
  grad := Vector.replicate _ 0
  jacEq := Dense.zeros
  jacIneq := Dense.zeros

/-- Ask for one quantity and store what was written. The stored value has to be finite. -/
def ask {β : Type} (what : Quantity) (call : StateM σ (Reply β)) (read : Evaluation α d → β)
    (store : β → Evaluation α d → Evaluation α d) (finite : β → Bool) :
    Step Quantity (Evaluation α d × σ) Unit :=
  .ofOutcome fun (e, w) =>
    let (reply, w') := call.run w
    let v := reply.onto (read e)
    (if reply.ok && finite v then .ok () else .error what, (store v e, w'))

def funcs (p : Problem α σ d) (x : Vector α d.n) : Step Quantity (Evaluation α d × σ) Unit := do
  ask .objective (p.objective x true) (·.f) (fun v e => { e with f := v }) isFinite
  ask .equalities (p.equalities x false) (·.eq) (fun v e => { e with eq := v })
    (fun v => allFinite v.toList)
  ask .inequalities (p.inequalities x false) (·.ineq) (fun v e => { e with ineq := v })
    (fun v => allFinite v.toList)

/-- Jacobians are written over zero matrices. -/
def clearJacobians (e : Evaluation α d) : Evaluation α d :=
  { e with jacEq := Dense.zeros, jacIneq := Dense.zeros }

/-- Gradient and Jacobians at the point of the last `funcs`. -/
def derivs (p : Problem α σ d) (x : Vector α d.n) : Step Quantity (Evaluation α d × σ) Unit := do
  ask .gradient (p.gradient x false) (·.grad) (fun v e => { e with grad := v })
    (fun v => allFinite v.toList)
  modify fun (e, w) => (e.clearJacobians, w)
  ask .equalityJacobian (p.equalityJacobian x false) (·.jacEq) (fun v e => { e with jacEq := v })
    (fun v => allFinite v.entries)
  ask .inequalityJacobian (p.inequalityJacobian x false) (·.jacIneq)
    (fun v e => { e with jacIneq := v }) (fun v => allFinite v.entries)

def all (p : Problem α σ d) (x : Vector α d.n) : Step Quantity (Evaluation α d × σ) Unit := do
  funcs p x
  derivs p x

/-- `∇f + Jcᵀ yc + Jdᵀ yd`. -/
def lagrangianGradient (e : Evaluation α d) (yc : Vector α d.mEq) (yd : Vector α d.mIneq) :
    Vector α d.n :=
  e.jacIneq.addTransposeProduct yd (e.jacEq.addTransposeProduct yc e.grad)

end Evaluation

end SmoothOpt
