import SmoothOpt.Dims
import SmoothOpt.Failure
import SmoothOpt.Linear.Dense

/-!
Smooth nonlinear programs as the solvers see them.

A problem is a record of callbacks. Each receives the point and a flag `newX`; a false flag
promises that the point is that of the previous evaluation. A callback may remember things in a
private state, so it may answer differently at different times, and it may fail. A failed callback
still says what it wrote, because a solver that stops on the failure reports that value.
-/
namespace SmoothOpt

open Linear

/-- Answer of a callback: what it wrote, if anything, and whether it succeeded. -/
structure Reply (β : Type) where
  value : Option β
  ok : Bool

namespace Reply

variable {β : Type}

def good (v : β) : Reply β := ⟨some v, true⟩

def silent (ok : Bool) : Reply β := ⟨none, ok⟩

/-- What a place holds after the callback wrote to it. -/
def onto (r : Reply β) (old : β) : β := r.value.getD old

end Reply

/-- A nonlinear program with private callback state `σ`. -/
structure Problem (α σ : Type) (d : Dims) where
  variableBounds : StateM σ (Reply (Vector α d.n × Vector α d.n))
  inequalityBounds : StateM σ (Reply (Vector α d.mIneq × Vector α d.mIneq))
  /-- Starting point; it need not respect the bounds. -/
  start : StateM σ (Reply (Vector α d.n))
  objective : Vector α d.n → Bool → StateM σ (Reply α)
  gradient : Vector α d.n → Bool → StateM σ (Reply (Vector α d.n))
  equalities : Vector α d.n → Bool → StateM σ (Reply (Vector α d.mEq))
  inequalities : Vector α d.n → Bool → StateM σ (Reply (Vector α d.mIneq))
  equalityJacobian : Vector α d.n → Bool → StateM σ (Reply (Dense α d.mEq d.n))
  inequalityJacobian : Vector α d.n → Bool → StateM σ (Reply (Dense α d.mIneq d.n))
  providesHessian : Bool
  /-- Hessian of `w f + ycᵀ c + ydᵀ d` for an objective weight `w`. -/
  hessian : Vector α d.n → Bool → α → Vector α d.mEq → Vector α d.mIneq →
    StateM σ (Reply (Dense α d.n d.n))

namespace Problem

variable {α σ : Type} {d : Dims}

/-- The problem with every optional callback missing: constraint callbacks succeed only when there
is nothing to write, and there is no Hessian. -/
def unconstrained (p : Problem α σ d) : Problem α σ d :=
  { p with
    inequalityBounds := pure (.silent (d.mIneq == 0))
    equalities := fun _ _ => pure (.silent (d.mEq == 0))
    inequalities := fun _ _ => pure (.silent (d.mIneq == 0))
    equalityJacobian := fun _ _ => pure (.silent (d.mEq == 0))
    inequalityJacobian := fun _ _ => pure (.silent (d.mIneq == 0))
    providesHessian := false
    hessian := fun _ _ _ _ _ => pure (.silent false) }

end Problem

/-- Sizes a solver can work with: there are variables, and not more equalities than variables. -/
def Dims.validate {α : Type} (d : Dims) : Except (ProblemFault α) Unit :=
  if d.n = 0 then .error .noVariables
  else if d.n < d.mEq then .error (.tooManyEqualities d.mEq d.n)
  else .ok ()

end SmoothOpt
