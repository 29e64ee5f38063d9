import SmoothOpt.Linear.Norm
import SmoothOpt.Newton.System
import SmoothOpt.Problem.Bounds

/-!
Primal-dual points of the barrier problem and directions between them.

The variables `x` and the inequality slacks `s` are two blocks of one shape: a point within a box,
its distances to the lower and upper bounds, and the multipliers of those bounds. Distances are
carried along and moved by the same step as the point. Entries of an absent bound hold zero
distance and zero multiplier, and no step touches them.
-/
namespace SmoothOpt

open Scalar Linear

/-- A point in a box with its distances to the bounds and the multipliers of the bounds. -/
structure Block (α : Type) (n : Nat) where
  point : Vector α n
  slackLo : Vector α n
  slackHi : Vector α n
  multLo : Vector α n
  multHi : Vector α n

structure BlockStep (α : Type) (n : Nat) where
  point : Vector α n
  multLo : Vector α n
  multHi : Vector α n

/-- A primal-dual point. -/
structure Iterate (α : Type) (d : Dims) where
  x : Block α d.n
  /-- Slack variables of the inequalities, `d(x) - s = 0` at feasibility. -/
  s : Block α d.mIneq
  yc : Vector α d.mEq
  yd : Vector α d.mIneq

structure Direction (α : Type) (d : Dims) where
  x : BlockStep α d.n
  s : BlockStep α d.mIneq
  dyc : Vector α d.mEq
  dyd : Vector α d.mIneq

variable {α : Type} [Scalar α] {n : Nat} {d : Dims}

/-- `base - l` where the lower bound is present, then `+ h` where the upper one is. -/
def pulled (lo hi : Bound α) (base l h : α) : α :=
  let g := if lo.present then base - l else base
  if hi.present then g + h else g

/-- A point moved strictly inside its range. With both bounds the push is the smaller of
`kappa1 max(1, |bound|)` and `kappa2 (hi - lo)` on each side, with one bound the former. -/
def pushInside (kappa1 kappa2 : α) (lo hi : Bound α) (v : α) : α :=
  let push (b : α) : α := kappa1 * maxNum (magnitude b) 1
  match lo.present, hi.present with
  | true, true =>
    let range := hi.value - lo.value
    minNum (maxNum v (lo.value + minNum (push lo.value) (kappa2 * range)))
      (hi.value - minNum (push hi.value) (kappa2 * range))
  | true, false => maxNum v (lo.value + push lo.value)
  | false, true => minNum v (hi.value - push hi.value)
  | false, false => v

/-- Every entry of a vector moved strictly inside its range. -/
def Box.pushInside (b : Box α n) (kappa1 kappa2 : α) (v : Vector α n) : Vector α n :=
  Vector.ofFn fun i => SmoothOpt.pushInside kappa1 kappa2 (b.lower.get i) (b.upper.get i) (v.get i)

/-- The largest step up to `alpha` that keeps every flagged `s + step · sign · ds` at or above
`(1 - tau) s`. -/
def fractionToBoundary (s ds : List α) (sign : α) (mask : List Bool) (tau alpha : α) : α :=
  (masked (s.zip ds) mask).foldl (fun acc (si, dsi) =>
    let step := sign * dsi
    if step < 0 then minNum acc (-tau * si / step) else acc) alpha

def movedWhere (v dv : Vector α n) (b : Vector (Bound α) n) (alpha : α) : Vector α n :=
  Vector.ofFn fun i => if (b.get i).present then v.get i + alpha * dv.get i else v.get i

/-- A multiplier clipped into `[mu / (kappa s), kappa mu / s]`. -/
def clipped (mu kappa s z : α) : α := minNum (maxNum z (mu / (kappa * s))) (kappa * mu / s)

namespace Block

def zero : Block α n :=
  let o := Vector.replicate n 0
  ⟨o, o, o, o, o⟩

/-- Distances to the present bounds, at least `floor`; zero for absent ones. -/
def withSlacks (k : Block α n) (b : Box α n) (floor : α) : Block α n :=
  { k with
    slackLo := Vector.ofFn fun i =>
      let lo := b.lower.get i
      if lo.present then maxNum (k.point.get i - lo.value) floor else 0
    slackHi := Vector.ofFn fun i =>
      let hi := b.upper.get i
      if hi.present then maxNum (hi.value - k.point.get i) floor else 0 }

/-- The given multiplier at every present bound, zero at absent ones. -/
def withMultipliers (k : Block α n) (b : Box α n) (value : α) : Block α n :=
  { k with
    multLo := b.lower.map fun l => if l.present then value else 0
    multHi := b.upper.map fun h => if h.present then value else 0 }

def moved (k : Block α n) (step : BlockStep α n) (b : Box α n) (alpha : α) : Block α n :=
  { k with
    point := Vector.ofFn fun i => k.point.get i + alpha * step.point.get i
    slackLo := Vector.ofFn fun i =>
      if (b.lower.get i).present then k.slackLo.get i + alpha * step.point.get i
      else k.slackLo.get i
    slackHi := Vector.ofFn fun i =>
      if (b.upper.get i).present then k.slackHi.get i - alpha * step.point.get i
      else k.slackHi.get i }

def multipliersMoved (k : Block α n) (step : BlockStep α n) (b : Box α n) (alpha : α) :
    Block α n :=
  { k with
    multLo := movedWhere k.multLo step.multLo b.lower alpha
    multHi := movedWhere k.multHi step.multHi b.upper alpha }

/-- The multipliers of present bounds kept near the barrier's own `mu / s`. -/
def multipliersClipped (k : Block α n) (b : Box α n) (mu kappa : α) : Block α n :=
  { k with
    multLo := Vector.ofFn fun i =>
      if (b.lower.get i).present then clipped mu kappa (k.slackLo.get i) (k.multLo.get i)
      else k.multLo.get i
    multHi := Vector.ofFn fun i =>
      if (b.upper.get i).present then clipped mu kappa (k.slackHi.get i) (k.multHi.get i)
      else k.multHi.get i }

/-- Barrier diagonal: multiplier over distance, summed over the present bounds. -/
def diagonal (k : Block α n) (b : Box α n) : Vector α n :=
  Vector.ofFn fun i =>
    let lo := if (b.lower.get i).present then 0 + k.multLo.get i / k.slackLo.get i else 0
    if (b.upper.get i).present then lo + k.multHi.get i / k.slackHi.get i else lo

/-- The multiplier steps that belong to a step of the point, from the linearized complementarity
conditions. -/
def completeStep (k : Block α n) (b : Box α n) (mu : α) (dv : Vector α n) : BlockStep α n where
  point := dv
  multLo := Vector.ofFn fun i =>
    let s := k.slackLo.get i
    let z := k.multLo.get i
    if (b.lower.get i).present then mu / s - z - z / s * dv.get i else 0
  multHi := Vector.ofFn fun i =>
    let s := k.slackHi.get i
    let z := k.multHi.get i
    if (b.upper.get i).present then mu / s - z + z / s * dv.get i else 0

/-- `base` minus the lower and plus the upper terms of present bounds. -/
def pull (b : Box α n) (base lo hi : Vector α n) : Vector α n :=
  Vector.ofFn fun i =>
    pulled (b.lower.get i) (b.upper.get i) (base.get i) (lo.get i) (hi.get i)

def isInterior (k : Block α n) (b : Box α n) : Bool :=
  let positive (v : Vector α n) (mask : List Bool) : Bool :=
    (masked v.toList mask).all fun x => decide (0 < x)
  positive k.slackLo b.hasLower && positive k.slackHi b.hasUpper
    && positive k.multLo b.hasLower && positive k.multHi b.hasUpper

end Block

namespace Iterate

def zero : Iterate α d := ⟨.zero, .zero, Vector.replicate _ 0, Vector.replicate _ 0⟩

def withSlacks (it : Iterate α d) (b : Bounds α d) (floor : α) : Iterate α d :=
  { it with x := it.x.withSlacks b.x floor, s := it.s.withSlacks b.s floor }

def withMultipliers (it : Iterate α d) (b : Bounds α d) (value : α) : Iterate α d :=
  { it with x := it.x.withMultipliers b.x value, s := it.s.withMultipliers b.s value }

/-- Both points moved strictly inside their ranges. -/
def pushedInside (it : Iterate α d) (b : Bounds α d) (kappa1 kappa2 : α) : Iterate α d :=
  { it with
    x := { it.x with point := b.x.pushInside kappa1 kappa2 it.x.point }
    s := { it.s with point := b.s.pushInside kappa1 kappa2 it.s.point } }

/-- The largest primal step length up to one that keeps every present distance at or above
`1 - tau` of its value. -/
def maxPrimalStep (it : Iterate α d) (dir : Direction α d) (b : Bounds α d) (tau : α) : α :=
  let dx := dir.x.point.toList
  let ds := dir.s.point.toList
  let alpha := fractionToBoundary it.x.slackLo.toList dx 1 b.x.hasLower tau 1
  let alpha := fractionToBoundary it.x.slackHi.toList dx (-1) b.x.hasUpper tau alpha
  let alpha := fractionToBoundary it.s.slackLo.toList ds 1 b.s.hasLower tau alpha
  fractionToBoundary it.s.slackHi.toList ds (-1) b.s.hasUpper tau alpha

/-- The same rule for the bound multipliers. -/
def maxDualStep (it : Iterate α d) (dir : Direction α d) (b : Bounds α d) (tau : α) : α :=
  let rule (z dz : List α) (mask : List Bool) (alpha : α) : α :=
    fractionToBoundary z dz 1 mask tau alpha
  let alpha := rule it.x.multLo.toList dir.x.multLo.toList b.x.hasLower 1
  let alpha := rule it.x.multHi.toList dir.x.multHi.toList b.x.hasUpper alpha
  let alpha := rule it.s.multLo.toList dir.s.multLo.toList b.s.hasLower alpha
  rule it.s.multHi.toList dir.s.multHi.toList b.s.hasUpper alpha

/-- Points and distances moved by `alpha`; multipliers stay. -/
def trial (it : Iterate α d) (dir : Direction α d) (b : Bounds α d) (alpha : α) : Iterate α d :=
  { it with x := it.x.moved dir.x b.x alpha, s := it.s.moved dir.s b.s alpha }

def takeBoundStep (it : Iterate α d) (dir : Direction α d) (b : Bounds α d) (alpha : α) :
    Iterate α d :=
  { it with
    x := it.x.multipliersMoved dir.x b.x alpha
    s := it.s.multipliersMoved dir.s b.s alpha }

def takeConstraintStep (it : Iterate α d) (dir : Direction α d) (alpha : α) : Iterate α d :=
  { it with
    yc := Vector.zipWith (fun y dy => y + alpha * dy) it.yc dir.dyc
    yd := Vector.zipWith (fun y dy => y + alpha * dy) it.yd dir.dyd }

def clip (it : Iterate α d) (b : Bounds α d) (mu kappa : α) : Iterate α d :=
  { it with
    x := it.x.multipliersClipped b.x mu kappa
    s := it.s.multipliersClipped b.s mu kappa }

def isInterior (it : Iterate α d) (b : Bounds α d) : Bool :=
  it.x.isInterior b.x && it.s.isInterior b.s

end Iterate

namespace Direction

def zero : Direction α d :=
  let o (n : Nat) : BlockStep α n :=
    ⟨Vector.replicate n 0, Vector.replicate n 0, Vector.replicate n 0⟩
  ⟨o _, o _, Vector.replicate _ 0, Vector.replicate _ 0⟩

def ofNewton (sol : Newton.Solution α d) (it : Iterate α d) (b : Bounds α d) (mu : α) :
    Direction α d where
  x := it.x.completeStep b.x mu sol.dx
  s := it.s.completeStep b.s mu sol.ds
  dyc := sol.dyc
  dyd := sol.dyd

/-- Largest `|dv| / (1 + |v|)` over variables and slacks. -/
def relativeSize (dir : Direction α d) (it : Iterate α d) : α :=
  let pairs := dir.x.point.toList.zip it.x.point.toList ++ dir.s.point.toList.zip it.s.point.toList
  pairs.foldl (fun acc (dv, v) => maxNum acc (magnitude dv / (1 + magnitude v))) 0

end Direction

end SmoothOpt
