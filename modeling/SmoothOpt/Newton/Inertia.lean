import SmoothOpt.Linear.Solver

/-!
Inertia and solution of a symmetric system through a scaled eigendecomposition.

The matrix is scaled symmetrically before it is decomposed. A congruence keeps the inertia, so the
eigenvalues of the scaled matrix are counted, and the solution of the system itself is recovered
by scaling again.
-/
namespace SmoothOpt.Newton

open Scalar Linear

structure Inertia where
  pos : Nat
  neg : Nat
  zero : Nat
  deriving DecidableEq, Repr

variable {α : Type} [Scalar α] {n : Nat}

/-- Largest magnitude in row `i` after scaling. -/
def scaledRowMax (k : Dense α n n) (scale : Vector α n) (i : Fin n) : α :=
  (List.finRange n).foldl
    (fun acc j => maxNum acc (magnitude (k.entry i j * scale.get i * scale.get j))) 0

/-- One pass of row balancing: row and column `i` are divided by the square root of the largest
entry of row `i`; empty rows keep their scale. -/
def balance (k : Dense α n n) (scale : Vector α n) : Vector α n :=
  Vector.ofFn fun i =>
    let rowMax := scaledRowMax k scale i
    scale.get i * (if 0 < rowMax then 1 / sqrt rowMax else 1)

/-- Scales after a number of balancing passes. -/
def equilibrate (k : Dense α n n) : Nat → Vector α n
  | 0 => Vector.replicate n 1
  | passes + 1 => balance k (equilibrate k passes)

/-- Row and column `i` times the `i`-th scale. -/
def congruence (k : Dense α n n) (scale : Vector α n) : Dense α n n :=
  Dense.ofFn fun i j => k.entry i j * (scale.get i * scale.get j)

/-- Count eigenvalues; one of magnitude at most `1e-13` times the largest (or one) is zero. -/
def Inertia.ofEigenvalues (values : List α) : Inertia :=
  let largest := maxNum (values.foldl (fun acc l => maxNum acc (magnitude l)) 0) 1
  values.foldl (fun (acc : Inertia) l =>
    if magnitude l ≤ 1e-13 * largest then { acc with zero := acc.zero + 1 }
    else if 0 < l then { acc with pos := acc.pos + 1 }
    else { acc with neg := acc.neg + 1 }) ⟨0, 0, 0⟩

structure ScaledEigen (α : Type) (n : Nat) where
  eigen : SymEigen α n
  scale : Vector α n

def balancingPasses : Nat := 3

variable [DenseSolver α]

def factor (k : Dense α n n) : ScaledEigen α n :=
  let scale := equilibrate k balancingPasses
  ⟨DenseSolver.eigen (congruence k scale), scale⟩

def ScaledEigen.inertia (e : ScaledEigen α n) : Inertia := .ofEigenvalues e.eigen.values.toList

def ScaledEigen.solve (e : ScaledEigen α n) (rhs : Vector α n) : Vector α n :=
  let b := Vector.zipWith (· * ·) rhs e.scale
  let w := Vector.zipWith (· / ·) (e.eigen.vectors.mulVec b) e.eigen.values
  Vector.zipWith (· * ·) (e.eigen.vectors.transpose.mulVec w) e.scale

end SmoothOpt.Newton
