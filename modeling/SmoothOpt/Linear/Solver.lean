import SmoothOpt.Linear.Dense

/-!
The two factorizations the solvers call.

They are operations of a class, so that the methods built on them can be studied with any
decomposition that meets its contract, and run with the double precision ones.
-/
namespace SmoothOpt.Linear

/-- A symmetric eigendecomposition: `vectors.get k` belongs to `values.get k`. -/
structure SymEigen (α : Type) (n : Nat) where
  values : Vector α n
  vectors : Dense α n n

/-- Dense factorizations over a scalar. -/
class DenseSolver (α : Type) where
  /-- Eigenvalues and orthonormal eigenvectors of a symmetric matrix. -/
  eigen : {n : Nat} → Dense α n n → SymEigen α n
  /-- Solution of a system with a symmetric positive definite matrix; `none` when the matrix
  shows a pivot that is not positive. -/
  solvePositive : {n : Nat} → Dense α n n → Vector α n → Option (Vector α n)

end SmoothOpt.Linear
