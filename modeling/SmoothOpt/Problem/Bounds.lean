import SmoothOpt.Problem
import SmoothOpt.Settings

/-!
Bounds of a problem, validated and prepared for the barrier.

A bound of magnitude `1e20` or more counts as absent. Absent bounds keep their value but are
flagged; every slack and multiplier attached to one stays zero. Coinciding bounds are an error or
are moved apart, as the settings ask.
-/
namespace SmoothOpt

open Scalar

variable {α : Type} [Scalar α]

/-- Whether a value is a bound in earnest. -/
def isFiniteBound (b : α) : Bool := isFinite b && decide (magnitude b < 1e20)

structure Bound (α : Type) where
  value : α
  present : Bool

/-- A bound that is present when its value is one in earnest. -/
def Bound.of (b : α) : Bound α := ⟨b, isFiniteBound b⟩

structure Box (α : Type) (n : Nat) where
  lower : Vector (Bound α) n
  upper : Vector (Bound α) n

namespace Box

variable {n : Nat}

def hasLower (b : Box α n) : List Bool := b.lower.toList.map (·.present)

def hasUpper (b : Box α n) : List Bool := b.upper.toList.map (·.present)

def count (b : Box α n) : Nat := b.hasLower.count true + b.hasUpper.count true

end Box

/-- A present bound moved by `shift · max(1, |bound|)`. -/
def Bound.moved (b : Bound α) (shift : α) : Bound α :=
  if b.present then { b with value := b.value + shift * maxNum (magnitude b.value) 1 } else b

def Box.widened {n : Nat} (b : Box α n) (factor : α) : Box α n where
  lower := b.lower.map (·.moved (-1 * factor))
  upper := b.upper.map (·.moved (1 * factor))

structure Bounds (α : Type) (d : Dims) where
  x : Box α d.n
  s : Box α d.mIneq
  relaxedFixed : Nat

namespace Bounds

/-- Number of present bounds, the size of the complementarity set. -/
def count {d : Dims} (b : Bounds α d) : Nat := b.x.count + b.s.count

/-- What to do with pairs of bounds that nearly coincide. -/
structure FixedRule (α : Type) where
  handling : FixedHandling
  /-- Relative width below which bounds coincide. -/
  tolerance : α
  perturb : α

def FixedRule.ofSettings (s : InteriorSettings α) : FixedRule α :=
  ⟨s.fixedVar, s.fixedVarTolerance, s.fixedVarPerturb⟩

/-- Both bounds are in earnest and nearly coincide. -/
def FixedRule.coincide (rule : FixedRule α) (lo hi : α) : Bool :=
  isFiniteBound lo && isFiniteBound hi &&
    decide (hi - lo ≤ rule.tolerance * maxNum (magnitude hi) 1)

/-- Coinciding bounds moved apart, other pairs as they are. -/
def FixedRule.settle (rule : FixedRule α) (lo hi : α) : α × α :=
  if rule.coincide lo hi then
    (lo - rule.perturb * maxNum (magnitude lo) 1, hi + rule.perturb * maxNum (magnitude hi) 1)
  else (lo, hi)

def variableFault (rule : FixedRule α) (i : Nat) (lo hi : α) : Option (ProblemFault α) :=
  if isUndefined lo || isUndefined hi then some (.variableBoundUndefined i)
  else if hi < lo then some (.variableBoundsCrossed i lo hi)
  else if rule.coincide lo hi && decide (rule.handling = .error) then some (.variableFixed i lo)
  else none

def inequalityFault (rule : FixedRule α) (j : Nat) (lo hi : α) : Option (ProblemFault α) :=
  if isUndefined lo || isUndefined hi then some (.inequalityBoundUndefined j)
  else if hi < lo then some (.inequalityBoundsCrossed j lo hi)
  else if !isFiniteBound lo && !isFiniteBound hi then some (.inequalityUnbounded j)
  else if rule.coincide lo hi && decide (rule.handling = .error) then some (.inequalityFixed j lo)
  else none

def firstFault {n : Nat} (fault : Nat → α → α → Option (ProblemFault α)) (lo hi : Vector α n) :
    Option (ProblemFault α) :=
  (List.finRange n).findSome? fun (i : Fin n) => fault i.val (lo.get i) (hi.get i)

/-- Flagged bounds from faultless raw ones. -/
def settledBox {n : Nat} (rule : FixedRule α) (lo hi : Vector α n) : Box α n where
  lower := Vector.zipWith (fun l h => Bound.of (rule.settle l h).1) lo hi
  upper := Vector.zipWith (fun l h => Bound.of (rule.settle l h).2) lo hi

def coinciding {n : Nat} (rule : FixedRule α) (lo hi : Vector α n) : Nat :=
  (List.finRange n).countP fun i => rule.coincide (lo.get i) (hi.get i)

/-- Validate and settle raw bounds; variables come before inequalities. -/
def ofRaw {d : Dims} (rule : FixedRule α) (xl xu : Vector α d.n) (dl du : Vector α d.mIneq) :
    Except (ProblemFault α) (Bounds α d) :=
  match firstFault (variableFault rule) xl xu with
  | some fault => .error fault
  | none => match firstFault (inequalityFault rule) dl du with
    | some fault => .error fault
    | none => .ok
      { x := settledBox rule xl xu
        s := settledBox rule dl du
        relaxedFixed := coinciding rule xl xu + coinciding rule dl du }

/-- Flagged bounds with the given values, unchecked. -/
def literal {d : Dims} (xl xu : Vector α d.n) (dl du : Vector α d.mIneq) : Bounds α d where
  x := ⟨xl.map Bound.of, xu.map Bound.of⟩
  s := ⟨dl.map Bound.of, du.map Bound.of⟩
  relaxedFixed := 0

/-- Query, validate and settle the bounds of a problem. What a callback leaves unwritten is
absent. -/
def ofProblem {σ : Type} {d : Dims} (p : Problem α σ d) (rule : FixedRule α) :
    StateM σ (Except (ProblemFault α) (Bounds α d)) := do
  let absent (n : Nat) : Vector α n × Vector α n :=
    (Vector.replicate n (-infinity), Vector.replicate n infinity)
  let xs ← p.variableBounds
  if !xs.ok then return .error .variableBoundsFailed
  let ds ← p.inequalityBounds
  if !ds.ok then return .error .inequalityBoundsFailed
  let (xl, xu) := xs.onto (absent d.n)
  let (dl, du) := ds.onto (absent d.mIneq)
  return ofRaw rule xl xu dl du

/-- Move every present bound outwards by `factor · max(1, |bound|)`, so that narrow ranges have an
interior; a factor that is not positive changes nothing. -/
def relax {d : Dims} (b : Bounds α d) (factor : α) : Bounds α d :=
  if factor ≤ 0 then b else { b with x := b.x.widened factor, s := b.s.widened factor }

end Bounds

end SmoothOpt
