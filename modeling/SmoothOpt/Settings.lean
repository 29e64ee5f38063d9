import SmoothOpt.Scalar

/-!
Parameters of the two solvers and their default values.
-/
namespace SmoothOpt

/-- How constraint multipliers are refreshed after an accepted step. -/
inductive MultiplierUpdate where
  | lsq
  | newton
  deriving DecidableEq, Repr

inductive MultiplierStart where
  | lsq
  | constant
  deriving DecidableEq, Repr

inductive HessianChoice where
  /-- Exact if the problem provides one, quasi-Newton otherwise. -/
  | auto
  | exact
  | quasiNewton
  deriving DecidableEq, Repr

/-- What happens to a variable or inequality whose bounds coincide. -/
inductive FixedHandling where
  | error
  | relax
  deriving DecidableEq, Repr

inductive PenaltyGrowth where
  | boundedGeometric
  /-- Jump to the cap, then grow geometrically. -/
  | saturating
  deriving DecidableEq, Repr

structure InteriorSettings (α : Type) where
  tolerance : α
  /-- Tolerance relative to the error at the starting point; zero switches it off. -/
  relTolerance : α
  acceptableTolerance : α
  acceptableIterations : Nat
  maxIter : Nat
  mu0 : α
  /-- Linear decrease factor of the barrier parameter. -/
  kappaMu : α
  /-- Superlinear decrease exponent of the barrier parameter. -/
  thetaMu : α
  /-- Least fraction-to-boundary parameter. -/
  tauMin : α
  /-- Barrier subproblem tolerance relative to the barrier parameter. -/
  kappaEps : α
  /-- Starting push relative to the bound's magnitude. -/
  kappa1 : α
  /-- Starting push relative to the range between the bounds. -/
  kappa2 : α
  /-- Multiplier magnitude from which errors are scaled down. -/
  pSmax : α
  gammaTheta : α
  gammaPhi : α
  sTheta : α
  sPhi : α
  delta : α
  etaPhi : α
  gammaAlpha : α
  maxBacktracks : Nat
  /-- Clipping factor of the bound multipliers. -/
  kappaSigma : α
  multiplierUpdate : MultiplierUpdate
  multiplierStart : MultiplierStart
  multiplierInit : α
  /-- Larger least-squares starting multipliers are discarded. -/
  multiplierInitMax : α
  hessian : HessianChoice
  fixedVar : FixedHandling
  fixedVarTolerance : α
  fixedVarPerturb : α
  boundRelaxFactor : α
  deltaWInit : α
  deltaWMax : α
  deltaC : α
  /-- Log level: 0 silent, 1 summary, 2 iterations, 3 scalars. -/
  verbosity : Nat

namespace InteriorSettings

variable {α : Type} [Scalar α]

/-- The parameters a solver runs with when nothing is set. -/
def default : InteriorSettings α where
  tolerance := 1e-8
  relTolerance := 0
  acceptableTolerance := 1e-6
  acceptableIterations := 10
  maxIter := 3000
  mu0 := 1
  kappaMu := 0.2
  thetaMu := 1.5
  tauMin := 0.99
  kappaEps := 10.0
  kappa1 := 1e-2
  kappa2 := 1e-2
  pSmax := 100.0
  gammaTheta := 1e-5
  gammaPhi := 1e-8
  sTheta := 1.1
  sPhi := 2.3
  delta := 1
  etaPhi := 1e-4
  gammaAlpha := 0.05
  maxBacktracks := 50
  kappaSigma := 1e10
  multiplierUpdate := .lsq
  multiplierStart := .lsq
  multiplierInit := 1
  multiplierInitMax := 1e3
  hessian := .auto
  fixedVar := .error
  fixedVarTolerance := 1e-15
  fixedVarPerturb := 1e-8
  boundRelaxFactor := 1e-8
  deltaWInit := 1e-4
  deltaWMax := 1e40
  deltaC := 1e-8
  verbosity := 1

end InteriorSettings

structure PenaltySettings (α : Type) where
  tolerance : α
  relTolerance : α
  acceptableTolerance : α
  acceptableIterations : Nat
  maxIter : Nat
  rho0 : α
  rhoMax : α
  /-- Growth factor of the penalty parameter. -/
  rhoIncrease : α
  growth : PenaltyGrowth
  lambda0 : α
  stopOnInnerFailure : Bool
  inner : InteriorSettings α
  verbosity : Nat

namespace PenaltySettings

variable {α : Type} [Scalar α]

/-- The parameters a solver runs with when nothing is set. Subproblems relax fixed variables and
keep silent. -/
def default : PenaltySettings α where
  tolerance := 1e-6
  relTolerance := 1e-6
  acceptableTolerance := 1e-4
  acceptableIterations := 5
  maxIter := 1000
  rho0 := 100.0
  rhoMax := 1e7
  rhoIncrease := 10.0
  growth := .boundedGeometric
  lambda0 := 1
  stopOnInnerFailure := false
  inner := { (InteriorSettings.default : InteriorSettings α) with
    fixedVar := .relax, verbosity := 0 }
  verbosity := 1

end PenaltySettings

end SmoothOpt
