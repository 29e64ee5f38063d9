import SmoothOpt.Linear.Solver.Cholesky

/-!
The double precision factorizations as the solver's linear algebra.
-/
namespace SmoothOpt.Linear

instance : DenseSolver Float where
  eigen := qrEigen
  solvePositive := choleskySolve

end SmoothOpt.Linear
