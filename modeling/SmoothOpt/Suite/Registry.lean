import SmoothOpt.Problem

/-!
Small classic test problems with known optimal values.
-/
namespace SmoothOpt.Suite

open Scalar Linear

variable {α : Type} [Scalar α]

def always {β : Type} (v : β) : StateM Unit (Reply β) := pure (.good v)

def unbounded (n : Nat) : Vector α n := Vector.replicate n infinity

def square (x : α) : α := x * x

namespace Hs071

def objective (x : Vector α 4) : α := x.get 0 * x.get 3 * (x.get 0 + x.get 1 + x.get 2) + x.get 2

def gradient (x : Vector α 4) : Vector α 4 :=
  let g0 : α := x.get 3 * (2.0 * x.get 0 + x.get 1 + x.get 2)
  let g1 : α := x.get 0 * x.get 3
  let g2 : α := x.get 0 * x.get 3 + 1
  let g3 : α := x.get 0 * (x.get 0 + x.get 1 + x.get 2)
  #v[g0, g1, g2, g3]

def equality (x : Vector α 4) : α := sum (x.toList.map square) - 40.0

def inequality (x : Vector α 4) : α := product x.toList

def equalityGradient (x : Vector α 4) : Vector α 4 := x.map fun v => 2.0 * v

/-- Each entry is the product without its variable, which the bounds keep from zero. -/
def inequalityGradient (x : Vector α 4) : Vector α 4 := x.map fun v => product x.toList / v

def objectiveHessian (x : Vector α 4) : Dense α 4 4 :=
  let h00 : α := 2.0 * x.get 3
  let h03 : α := 2.0 * x.get 0 + x.get 1 + x.get 2
  #v[#v[h00, x.get 3, x.get 3, h03],
     #v[x.get 3, 0, 0, x.get 0],
     #v[x.get 3, 0, 0, x.get 0],
     #v[h03, x.get 0, x.get 0, 0]]

/-- Product of the variables other than `i` and `j`. -/
def others (x : Vector α 4) (i j : Fin 4) : α :=
  product (((List.finRange 4).filter fun k => k ≠ i ∧ k ≠ j).map x.get)

def hessian (x : Vector α 4) (w yc yd : α) : Dense α 4 4 :=
  Dense.ofFn fun i j =>
    (if i = j then 2.0 * yc else yd * others x i j) + w * (objectiveHessian x).entry i j

/-- HS071: minimize `x0 x3 (x0 + x1 + x2) + x2` with `Σ x² = 40`, `Π x ≥ 25` and `1 ≤ x ≤ 5`. -/
def problem : Problem α Unit ⟨4, 1, 1⟩ where
  variableBounds := always (Vector.replicate 4 1, Vector.replicate 4 5.0)
  inequalityBounds := always (#v[25.0], #v[infinity])
  start := always #v[1, 5.0, 5.0, 1]
  objective := fun x _ => always (objective x)
  gradient := fun x _ => always (gradient x)
  equalities := fun x _ => always #v[equality x]
  inequalities := fun x _ => always #v[inequality x]
  equalityJacobian := fun x _ => always #v[equalityGradient x]
  inequalityJacobian := fun x _ => always #v[inequalityGradient x]
  providesHessian := true
  hessian := fun x _ w yc yd => always (hessian x w (yc.get 0) (yd.get 0))

end Hs071

namespace Hs035

def objective (x : Vector α 3) : α :=
  9.0 - 8.0 * x.get 0 - 6.0 * x.get 1 - 4.0 * x.get 2 + 2.0 * x.get 0 * x.get 0
    + 2.0 * x.get 1 * x.get 1
    + x.get 2 * x.get 2 + 2.0 * x.get 0 * x.get 1 + 2.0 * x.get 0 * x.get 2

def gradient (x : Vector α 3) : Vector α 3 :=
  let g0 : α := -8.0 + 4.0 * x.get 0 + 2.0 * x.get 1 + 2.0 * x.get 2
  let g1 : α := -6.0 + 4.0 * x.get 1 + 2.0 * x.get 0
  let g2 : α := -4.0 + 2.0 * x.get 2 + 2.0 * x.get 0
  #v[g0, g1, g2]

def inequality (x : Vector α 3) : α := x.get 0 + x.get 1 + 2.0 * x.get 2

def inequalityGradient : Vector α 3 := #v[1, 1, 2.0]

def hessian (w : α) : Dense α 3 3 :=
  Dense.scale #v[#v[4.0, 2.0, 2.0], #v[2.0, 4.0, 0], #v[2.0, 0, 2.0]] w

/-- HS035: a convex quadratic with one linear inequality and non-negative variables. -/
def problem : Problem α Unit ⟨3, 0, 1⟩ where
  variableBounds := always (Vector.replicate 3 0, unbounded 3)
  inequalityBounds := always (#v[-infinity], #v[3.0])
  start := always (Vector.replicate 3 0.5)
  objective := fun x _ => always (objective x)
  gradient := fun x _ => always (gradient x)
  equalities := fun _ _ => pure (.silent true)
  inequalities := fun x _ => always #v[inequality x]
  equalityJacobian := fun _ _ => pure (.silent true)
  inequalityJacobian := fun _ _ => always #v[inequalityGradient]
  providesHessian := true
  hessian := fun _ _ w _ _ => always (hessian w)

end Hs035

namespace Hs006

def objective (x : Vector α 2) : α := square (1 - x.get 0)

def gradient (x : Vector α 2) : Vector α 2 :=
  let g0 : α := -2.0 * (1 - x.get 0)
  #v[g0, 0]

def equality (x : Vector α 2) : α := 10.0 * (x.get 1 - x.get 0 * x.get 0)

def equalityGradient (x : Vector α 2) : Vector α 2 :=
  let g0 : α := -20.0 * x.get 0
  #v[g0, 10.0]

def hessian (w yc : α) : Dense α 2 2 := #v[#v[2.0 * w - 20.0 * yc, 0], #v[0, 0]]

/-- HS006: minimize `(1 - x0)²` with `10 (x1 - x0²) = 0`. -/
def problem : Problem α Unit ⟨2, 1, 0⟩ where
  variableBounds := always ((unbounded 2).map (-·), unbounded 2)
  inequalityBounds := pure (.silent true)
  start := always #v[-1.2, 1]
  objective := fun x _ => always (objective x)
  gradient := fun x _ => always (gradient x)
  equalities := fun x _ => always #v[equality x]
  inequalities := fun _ _ => pure (.silent true)
  equalityJacobian := fun x _ => always #v[equalityGradient x]
  inequalityJacobian := fun _ _ => pure (.silent true)
  providesHessian := true
  hessian := fun _ _ w yc _ => always (hessian w (yc.get 0))

end Hs006

namespace Rosenbrock

variable {n : Nat}

/-- Residual `x_{i+1} - x_i²` of a link of the chain. -/
def link (x : Vector α n) (i : Nat) (h : i + 1 < n) : α := x[i + 1] - x[i] * x[i]

def linkCost (x : Vector α n) (i : Nat) (h : i + 1 < n) : α :=
  100.0 * square (link x i h) + square (1 - x[i])

def objective (x : Vector α n) : α :=
  sum ((List.range (n - 1)).attach.map fun ⟨i, hi⟩ =>
    linkCost x i (by have := List.mem_range.mp hi; omega))

/-- Variable `i` belongs to the link behind it and to the link ahead of it. -/
def gradient (x : Vector α n) : Vector α n :=
  Vector.ofFn fun ⟨i, hi⟩ =>
    let back : α := if h : 0 < i then 0 + 200.0 * link x (i - 1) (by omega) else 0
    if h : i + 1 < n then back + (-400.0 * x[i] * link x i h - 2.0 * (1 - x[i])) else back

def hessian (x : Vector α n) (w : α) : Dense α n n :=
  Dense.ofFn fun ⟨i, hi⟩ ⟨j, hj⟩ =>
    if i = j then
      let back : α := if 0 < i then 0 + w * 200.0 else 0
      if h : i + 1 < n then back + w * (1200.0 * x[i] * x[i] - 400.0 * x[i + 1] + 2.0) else back
    else if i + 1 = j then 0 - w * 400.0 * x[i]
    else if j + 1 = i then 0 - w * 400.0 * x[j]
    else 0

/-- Chained Rosenbrock: `Σ 100 (x_{i+1} - x_i²)² + (1 - x_i)²` from `(-1.2, 1, -1.2, 1, ...)`. -/
def problem (n : Nat) : Problem α Unit ⟨n, 0, 0⟩ where
  variableBounds := always ((unbounded n).map (-·), unbounded n)
  inequalityBounds := pure (.silent true)
  start := always (Vector.ofFn fun i => if i.val % 2 = 0 then -1.2 else 1)
  objective := fun x _ => always (objective x)
  gradient := fun x _ => always (gradient x)
  equalities := fun _ _ => pure (.silent true)
  inequalities := fun _ _ => pure (.silent true)
  equalityJacobian := fun _ _ => pure (.silent true)
  inequalityJacobian := fun _ _ => pure (.silent true)
  providesHessian := true
  hessian := fun x _ w _ _ => always (hessian x w)

end Rosenbrock

structure TestProblem (α : Type) where
  name : String
  dims : Dims
  problem : Problem α Unit dims
  optimal : α

/-- Every test problem, in a fixed order. The long chain has its reference at the local minimum
near `(-1, 1, ..., 1)` that its starting point leads to. -/
def registry : List (TestProblem α) :=
  [⟨"hs071", _, Hs071.problem, 17.0140173⟩,
   ⟨"hs035", _, Hs035.problem, 1 / 9.0⟩,
   ⟨"hs006", _, Hs006.problem, 0⟩,
   ⟨"rosenbrock", _, Rosenbrock.problem 2, 0⟩,
   ⟨"rosenbrock20", _, Rosenbrock.problem 20, 3.98662385⟩]

def find? (name : String) : Option (TestProblem α) := registry.find? (·.name == name)

/-- Objective error relative to the reference, on an absolute scale below one. -/
def TestProblem.objectiveError (t : TestProblem α) (obj : α) : α :=
  magnitude (obj - t.optimal) / maxNum (magnitude t.optimal) 1

end SmoothOpt.Suite
