import SmoothOpt.Problem

/-!
Recording the evaluations a solver makes.
-/
namespace SmoothOpt

open Linear

/-- One evaluation: what was asked, where, and whether the point was announced as new. -/
structure Call (α : Type) (n : Nat) where
  what : Quantity
  x : Vector α n
  newX : Bool

namespace Problem

variable {α σ τ β : Type} {d : Dims}

def onFirst (m : StateM σ β) : StateM (σ × τ) β := fun (s, t) =>
  let (r, s') := m.run s
  (r, (s', t))

/-- The same problem beside a state of no concern to it. -/
def besides (p : Problem α σ d) : Problem α (σ × τ) d where
  variableBounds := onFirst p.variableBounds
  inequalityBounds := onFirst p.inequalityBounds
  start := onFirst p.start
  objective := fun x newX => onFirst (p.objective x newX)
  gradient := fun x newX => onFirst (p.gradient x newX)
  equalities := fun x newX => onFirst (p.equalities x newX)
  inequalities := fun x newX => onFirst (p.inequalities x newX)
  equalityJacobian := fun x newX => onFirst (p.equalityJacobian x newX)
  inequalityJacobian := fun x newX => onFirst (p.inequalityJacobian x newX)
  providesHessian := p.providesHessian
  hessian := fun x newX w yc yd => onFirst (p.hessian x newX w yc yd)

def noted (what : Quantity) (x : Vector α d.n) (newX : Bool) (m : StateM σ β) :
    StateM (σ × List (Call α d.n)) β := do
  modify fun (s, calls) => (s, ⟨what, x, newX⟩ :: calls)
  onFirst m

/-- The same problem with every evaluation recorded, newest first. -/
def recorded (p : Problem α σ d) : Problem α (σ × List (Call α d.n)) d :=
  { (p.besides : Problem α (σ × List (Call α d.n)) d) with
    objective := fun x newX => noted .objective x newX (p.objective x newX)
    gradient := fun x newX => noted .gradient x newX (p.gradient x newX)
    equalities := fun x newX => noted .equalities x newX (p.equalities x newX)
    inequalities := fun x newX => noted .inequalities x newX (p.inequalities x newX)
    equalityJacobian := fun x newX => noted .equalityJacobian x newX (p.equalityJacobian x newX)
    inequalityJacobian := fun x newX =>
      noted .inequalityJacobian x newX (p.inequalityJacobian x newX)
    hessian := fun x newX w yc yd => noted .hessian x newX (p.hessian x newX w yc yd) }

end Problem

end SmoothOpt
