import SmoothOpt.Dims
import SmoothOpt.Scalar
import SmoothOpt.Status

/-!
What a solver tells its caller: a snapshot per iteration and a result at the end.
-/
namespace SmoothOpt

/-- Snapshot handed to an observer before the step of an iteration is computed. -/
structure IterationInfo (α : Type) where
  iter : Nat
  obj : α
  /-- Log-barrier objective; equal to `obj` in the augmented Lagrangian loop. -/
  phi : α
  errOverall : α
  errFeas : α
  errOptim : α
  /-- Barrier parameter, zero in the augmented Lagrangian loop. -/
  mu : α
  /-- Penalty parameter, zero in the interior point method. -/
  rho : α
  alphaPrimal : α
  alphaDual : α
  filterSize : Nat
  innerStatus : Option Status

structure SolveInfo (α : Type) where
  iters : Nat
  errOptim : α
  errFeas : α
  errComplem : α
  errOverall : α
  mu : α
  rho : α
  filterSize : Nat
  innerIters : Nat
  innerStatuses : List Status
  primalBumps : Nat

/-- Outcome of a run with the final point. On a failure it holds the point reached. -/
structure SolveResult (α : Type) (d : Dims) where
  status : Status
  x : Vector α d.n
  yc : Vector α d.mEq
  yd : Vector α d.mIneq
  zl : Vector α d.n
  zu : Vector α d.n
  obj : α
  info : SolveInfo α

/-- Receives the events of a run and may stop it. `ω` is what the observer remembers. -/
structure Observer (α : Type) (d : Dims) (ω : Type) where
  /-- Called once per iteration; `true` asks for a stop. -/
  onIteration : IterationInfo α → ω → Bool × ω
  onSolution : SolveResult α d → ω → ω

/-- The observer that neither stops nor remembers. -/
def Observer.silent {α : Type} {d : Dims} : Observer α d Unit where
  onIteration := fun _ _ => (false, ())
  onSolution := fun _ _ => ()

end SmoothOpt
