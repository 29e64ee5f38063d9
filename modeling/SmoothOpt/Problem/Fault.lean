import SmoothOpt.Problem

/-!
Problems with deliberate faults, to watch a solver react to them.

A fault belongs to one callback and acts after it: it makes the callback fail or spoils the first
number it wrote. It may be confined to points where a variable exceeds a threshold.
-/
namespace SmoothOpt

open Scalar Linear

inductive Callback where
  | variableBounds
  | inequalityBounds
  | start
  | evaluation (what : Quantity)
  deriving DecidableEq, Repr

structure Fault (α : Type) where
  callback : Callback
  /-- Act only where this variable exceeds this value. -/
  beyond : Option (Nat × α)
  /-- The value that spoils the output, or none for a failed call. -/
  spoil : Option α

namespace Fault

variable {α : Type}

def spoilVector {n : Nat} (v : α) (xs : Vector α n) : Vector α n :=
  if h : 0 < n then xs.set 0 v h else xs

def spoilMatrix {m n : Nat} (v : α) (a : Dense α m n) : Dense α m n :=
  if h : 0 < m then a.set 0 (spoilVector v (a.get ⟨0, h⟩)) h else a

variable [Scalar α]

/-- Whether a fault acts at a point; callbacks without a point only have unconfined faults. -/
def acts (f : Fault α) (x : Option (List α)) : Bool :=
  match f.beyond with
  | none => true
  | some (i, above) => match x with
    | none => false
    | some x => (x[i]?).any fun v => decide (above < v)

/-- The reply of a callback after its faults. -/
def spoiled {β : Type} (faults : List (Fault α)) (callback : Callback) (x : Option (List α))
    (spoil : α → β → β) (r : Reply β) : Reply β :=
  (faults.filter fun f => f.callback = callback ∧ f.acts x).foldl (fun r f =>
    match f.spoil with
    | none => { r with ok := false }
    | some v => { r with value := r.value.map (spoil v) }) r

end Fault

namespace Problem

variable {α σ : Type} [Scalar α] {d : Dims}

def faulty (p : Problem α σ d) (faults : List (Fault α)) : Problem α σ d :=
  let quantity {β : Type} (what : Quantity) (spoil : α → β → β) (x : Vector α d.n)
      (m : StateM σ (Reply β)) : StateM σ (Reply β) :=
    Fault.spoiled faults (.evaluation what) (some x.toList) spoil <$> m
  { variableBounds :=
      Fault.spoiled faults .variableBounds none (fun v b => (Fault.spoilVector v b.1, b.2))
        <$> p.variableBounds
    inequalityBounds :=
      Fault.spoiled faults .inequalityBounds none (fun v b => (Fault.spoilVector v b.1, b.2))
        <$> p.inequalityBounds
    start := Fault.spoiled faults .start none Fault.spoilVector <$> p.start
    objective := fun x newX => quantity .objective (fun v _ => v) x (p.objective x newX)
    gradient := fun x newX => quantity .gradient Fault.spoilVector x (p.gradient x newX)
    equalities := fun x newX => quantity .equalities Fault.spoilVector x (p.equalities x newX)
    inequalities := fun x newX => quantity .inequalities Fault.spoilVector x (p.inequalities x newX)
    equalityJacobian := fun x newX =>
      quantity .equalityJacobian Fault.spoilMatrix x (p.equalityJacobian x newX)
    inequalityJacobian := fun x newX =>
      quantity .inequalityJacobian Fault.spoilMatrix x (p.inequalityJacobian x newX)
    providesHessian := p.providesHessian
    hessian := fun x newX w yc yd =>
      quantity .hessian Fault.spoilMatrix x (p.hessian x newX w yc yd) }

end Problem

end SmoothOpt
