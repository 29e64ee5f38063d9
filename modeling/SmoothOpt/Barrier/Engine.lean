import SmoothOpt.Barrier.Curvature
import SmoothOpt.Barrier.LineSearch
import SmoothOpt.Barrier.Multipliers
import SmoothOpt.Barrier.Schedule
import SmoothOpt.Event
import SmoothOpt.Report
import SmoothOpt.Termination

/-!
The interior point method with a filter line search.

A sequence of log-barrier problems with decreasing parameter `mu` is solved. Each iteration takes
one primal-dual Newton step: the step is shortened by the fraction-to-boundary rule, backtracked
against the filter, and the multipliers are refreshed at the new point.

The engine is a fixed `Setup` and a changing `State`. A failure ends a run with a status, and the
state keeps what had been reached.
-/
namespace SmoothOpt.Barrier

open Scalar Linear

/-- Distance substituted when a starting distance rounds to zero. -/
def minSlack {α : Type} [Scalar α] : α := 1e-16

/-- Relative size below which a step is not tested: ten units in the last place of one. -/
def tinyStep {α : Type} [Scalar α] : α := 10.0 / 4503599627370496.0

/-- What a run does not change. -/
structure Setup (α σ : Type) (d : Dims) where
  problem : Problem α σ d
  settings : InteriorSettings α
  bounds : Bounds α d

/-- What a run changes. -/
structure State (α σ : Type) (d : Dims) where
  world : World α σ
  curr : Iterate α d
  eval : Evaluation α d
  /-- Values at the last trial point, over derivatives of an earlier one. -/
  trialEval : Evaluation α d
  resid : Residual α d
  filter : Filter α
  mu : α
  tau : α
  lineSearch : LineSearch α
  curvature : Curvature α d
  shifts : Newton.ShiftMemory α
  termination : Termination α
  status : Status
  iter : Nat
  alphaPrimal : α
  alphaDual : α

structure Engine (α σ : Type) (d : Dims) where
  setup : Setup α σ d
  state : State α σ d

variable {α σ ω : Type} [Scalar α] {d : Dims}

namespace Setup

def schedule (c : Setup α σ d) : Schedule α := .ofSettings c.settings

end Setup

namespace State

def record (s : State α σ d) (e : Event α) : State α σ d := { s with world := s.world.record e }

def recordFrom (s : State α σ d) (c : Setup α σ d) (verbosity : Nat) (e : Event α) :
    State α σ d :=
  if verbosity ≤ c.settings.verbosity then s.record e else s

def initial (settings : InteriorSettings α) (useExact : Bool) (w : World α σ) : State α σ d where
  world := w
  curr := .zero
  eval := .blank
  trialEval := .blank
  resid := .blank
  filter := .empty settings.gammaTheta settings.gammaPhi
  mu := settings.mu0
  tau := maxNum settings.tauMin (1 - settings.mu0)
  lineSearch := .ofSettings settings 0
  curvature := .initial useExact
  shifts := .fresh
  termination := .ofInterior settings
  status := .solveNotCalled
  iter := 0
  alphaPrimal := 0
  alphaDual := 0

/-- Violation and barrier objective at the current point. -/
def measures (s : State α σ d) (c : Setup α σ d) : Measures α :=
  ⟨violation s.eval s.curr, barrierObjective s.eval s.curr c.bounds s.mu⟩

def info (s : State α σ d) (c : Setup α σ d) : IterationInfo α where
  iter := s.iter
  obj := s.eval.f
  phi := barrierObjective s.eval s.curr c.bounds s.mu
  errOverall := s.resid.nlpOverall
  errFeas := s.resid.nlpFeas
  errOptim := s.resid.nlpOptim
  mu := s.mu
  rho := 0
  alphaPrimal := s.alphaPrimal
  alphaDual := s.alphaDual
  filterSize := s.filter.size
  innerStatus := none

def result (s : State α σ d) : SolveResult α d where
  status := s.status
  x := s.curr.x.point
  yc := s.curr.yc
  yd := s.curr.yd
  zl := s.curr.x.multLo
  zu := s.curr.x.multHi
  obj := s.eval.f
  info :=
    { iters := s.iter
      errOptim := s.resid.nlpOptim
      errFeas := s.resid.nlpFeas
      errComplem := s.resid.nlpComplem
      errOverall := s.resid.nlpOverall
      mu := s.mu
      rho := 0
      filterSize := s.filter.size
      innerIters := 0
      innerStatuses := []
      primalBumps := s.shifts.primalBumps }

def withResiduals (s : State α σ d) (c : Setup α σ d) : State α σ d :=
  { s with resid := .compute s.curr s.eval c.bounds s.mu c.settings.pSmax }

/-- Decrease `mu` as long as the barrier problem is solved well enough for it. Every decrease
empties the filter. -/
def decreaseBarrier (c : Setup α σ d) : Nat → State α σ d → State α σ d
  | 0, s => s
  | budget + 1, s =>
    if c.schedule.subproblemSolved s.resid.barOverall s.mu then
      let mu := c.schedule.next s.mu
      if s.mu ≤ mu then s
      else
        let tau := c.schedule.tau mu
        let resid := s.resid.withBarrier s.curr c.bounds mu
        let s := { s with mu := mu, tau := tau, filter := s.filter.clear, resid := resid }
        decreaseBarrier c budget (s.recordFrom c 3 (.barrierDecreased mu tau resid.barOverall))
    else s

def updateBarrier (s : State α σ d) (c : Setup α σ d) : State α σ d :=
  s.decreaseBarrier c (c.schedule.budget s.mu)

def newtonData (s : State α σ d) (c : Setup α σ d) : Newton.Data α d :=
  let (rx, rs) := barrierGradients s.eval s.curr c.bounds s.mu
  { hess := s.curvature.matrix
    jacEq := s.eval.jacEq
    jacIneq := s.eval.jacIneq
    sigmaX := s.curr.x.diagonal c.bounds.x
    sigmaS := s.curr.s.diagonal c.bounds.s
    rhsX := rx.map (-·)
    rhsS := rs.map (-·)
    rhsEq := s.eval.eq.map (-·)
    rhsIneq := Vector.zipWith (· - ·) s.curr.s.point s.eval.ineq
    mu := s.mu }

end State

abbrev Run (α σ : Type) (d : Dims) (β : Type) := Step (Failure α) (State α σ d) β

def evaluating (e : Step Quantity (Evaluation α d × σ) Unit) : Run α σ d Unit :=
  e.within (fun s => (s.eval, s.world.problem))
    (fun (e, w) s => { s with eval := e, world := { s.world with problem := w } })
    Failure.evaluation

/-- The starting point asked of the problem; a callback that writes nothing leaves the origin. -/
def askStart (c : Setup α σ d) : Run α σ d (Vector α d.n) := .ofOutcome fun s =>
  let (reply, w) := c.problem.start.run s.world.problem
  let x := reply.onto (Vector.replicate _ 0)
  let r := if !reply.ok then .error (.invalidProblem .startFailed)
    else if !allFinite x.toList then .error (.invalidProblem .startNotFinite)
    else .ok x
  (r, { s with world := { s.world with problem := w } })

/-- Starting multipliers of the constraints, with a record of a discarded estimate. -/
def State.startMultipliers [DenseSolver α] (s : State α σ d) (c : Setup α σ d) : State α σ d :=
  match c.settings.multiplierStart with
  | .lsq =>
    let start := lsqStart s.eval s.curr c.bounds c.settings.multiplierInitMax
    let s := if start.isNone then s.record .startEstimateRejected else s
    { s with curr := s.curr.startByLsq s.eval c.bounds c.settings.multiplierInitMax }
  | .constant =>
    let y (m : Nat) : Vector α m := Vector.replicate m c.settings.multiplierInit
    { s with curr := s.curr.withConstraintMultipliers (y _, y _) }

/-- Everything that follows from the evaluation at the starting point: slacks, multipliers,
barrier parameter, filter, residuals and thresholds. -/
def State.settleStart [DenseSolver α] (s : State α σ d) (c : Setup α σ d) : State α σ d :=
  let point := c.bounds.s.pushInside c.settings.kappa1 c.settings.kappa2 s.eval.ineq
  let curr := { s.curr with s := { s.curr.s with point := point } }
  let curr := (curr.withSlacks c.bounds minSlack).withMultipliers c.bounds 1
  let s := State.startMultipliers { s with curr := curr } c
  let mu := c.settings.mu0
  let s := State.withResiduals
    { s with mu := mu, tau := c.schedule.tau mu, filter := s.filter.clear } c
  let theta0 := violation s.eval s.curr
  let s := { s with
    lineSearch := .ofSettings c.settings theta0
    termination := (Termination.ofInterior c.settings).recordInitial [s.resid.nlpOverall] }
  s.recordFrom c 3
    (.interiorStart s.eval.f theta0 s.resid.nlpOverall (infNorm s.curr.yc.toList))

variable [DenseSolver α]

/-- Build the starting point. The user's point is pushed strictly inside the bounds, the slacks
start at the pushed inequality bodies, every bound multiplier at one. -/
def startingProcedure (c : Setup α σ d) : Run α σ d Unit := do
  let x0 ← askStart c
  let x := c.bounds.x.pushInside c.settings.kappa1 c.settings.kappa2 x0
  modify fun s => { s with curr := { s.curr with x := { s.curr.x with point := x } } }
  evaluating (Evaluation.all c.problem x)
  modify (State.settleStart · c)

def refreshCurvature (c : Setup α σ d) : Run α σ d Unit := do
  let s ← get
  (Curvature.refresh c.problem s.curr.x.point s.eval s.curr.yc s.curr.yd).within
    (fun s => (s.curvature, s.world.problem))
    (fun (k, w) s => { s with curvature := k, world := { s.world with problem := w } })
    Failure.evaluation

def newtonStep (c : Setup α σ d) : Run α σ d (Newton.Solution α d) := .ofOutcome fun s =>
  let out := Newton.solve (.ofSettings c.settings) s.shifts (s.newtonData c)
  let s := out.rejected.foldl (fun s r => s.record (.inertiaRejected r.inertia r.deltaW)) s
  (out.result.mapError Failure.newton, { s with shifts := out.memory })

def searchDirection (c : Setup α σ d) : Run α σ d (Direction α d) := do
  refreshCurvature c
  let sol ← newtonStep c
  if 0 < sol.deltaW then
    modify (·.recordFrom c 3 (.inertiaCorrected sol.deltaW sol.deltaC))
  let s ← get
  return Direction.ofNewton sol s.curr c.bounds s.mu

def measureTrial (c : Setup α σ d) (s : State α σ d) (dir : Direction α d) (alpha : α) :
    Step (Failure α) (Evaluation α d × World α σ) (Measures α) := do
  let point := s.curr.trial dir c.bounds alpha
  (Evaluation.funcs c.problem point.x.point).within (fun (e, w) => (e, w.problem))
    (fun (e, p) (_, w) => (e, { w with problem := p })) Failure.evaluation
  let (e, _) ← get
  return ⟨violation e point, barrierObjective e point c.bounds s.mu⟩

/-- Find an acceptable step length up to `alphaMax`; the trial's evaluation is left in the state.
A step too small to measure is taken at once. -/
def searchStep (c : Setup α σ d) (s : State α σ d) (dir : Direction α d) (alphaMax : α) :
    Step (Failure α) (Evaluation α d × World α σ) (Accepted α) :=
  if dir.relativeSize s.curr < tinyStep then do
    let _ ← measureTrial c s dir alphaMax
    return ⟨alphaMax, .tiny, 0⟩
  else
    s.lineSearch.backtrack s.filter alphaMax (s.measures c)
      (barrierSlope s.eval s.curr dir c.bounds s.mu) (measureTrial c s dir)
      fun r (e, w) => (e, w.record
        (.stepRejected r.alpha r.current.theta r.trial.theta r.current.phi r.trial.phi))

/-- The line search of an iteration: the accepted step and the evaluation at its point. -/
def lineSearch (c : Setup α σ d) (dir : Direction α d) (alphaMax : α) :
    Run α σ d (Accepted α × Evaluation α d) := .ofOutcome fun s =>
  let (r, (e, w)) := (searchStep c s dir alphaMax).outcome (s.trialEval, s.world)
  (r.map (·, e), { s with world := w, trialEval := e })

/-- Move to an accepted point: a filter step records the point that is left. The evaluation of the
trial becomes the current one, and the next trials are written over the one it replaces. -/
def State.moveTo (s : State α σ d) (c : Setup α σ d) (dir : Direction α d) (acc : Accepted α)
    (e : Evaluation α d) (alphaDual : α) : State α σ d :=
  let here := s.measures c
  let filter := if acc.kind = .filter then s.filter.add here.theta here.phi else s.filter
  let point := s.curr.trial dir c.bounds acc.alpha
  { s with
    filter := filter
    curr := point.takeBoundStep dir c.bounds alphaDual
    eval := e
    trialEval := s.eval }

/-- Complete an iteration once the derivatives at the new point are known. -/
def State.complete (s : State α σ d) (c : Setup α σ d) (dir : Direction α d) (acc : Accepted α)
    (alphaDual : α) : State α σ d :=
  let (curr, fellBack) :=
    s.curr.refreshMultipliers c.settings.multiplierUpdate s.eval c.bounds dir acc.alpha
  let s := if fellBack then s.record .estimateFailed else s
  let curr := curr.clip c.bounds s.mu c.settings.kappaSigma
  let s := State.withResiduals { s with curr := curr } c
  let s := { s with alphaPrimal := acc.alpha, alphaDual := alphaDual, iter := s.iter + 1 }
  s.recordFrom c 2 (.interiorIteration s.iter s.eval.f s.resid.nlpFeas s.resid.nlpOptim s.mu
    s.alphaDual s.alphaPrimal acc.backtracks)

/-- One Newton step, from the current point to the next. -/
def advance (c : Setup α σ d) : Run α σ d Unit := do
  let dir ← searchDirection c
  let s ← get
  let alphaMax := s.curr.maxPrimalStep dir c.bounds s.tau
  let alphaDual := s.curr.maxDualStep dir c.bounds s.tau
  let (acc, e) ← lineSearch c dir alphaMax
  modify (State.moveTo · c dir acc e alphaDual)
  let s ← get
  evaluating (Evaluation.derivs c.problem s.curr.x.point)
  modify (State.complete · c dir acc alphaDual)

/-- One pass of the main loop: a status that ends the run, or none after a step. -/
def pass (c : Setup α σ d) (obs : Observer α d ω) :
    Step (Failure α) (State α σ d × ω) (Option Status) := do
  let (s, o) ← get
  let (verdict, termination) := s.termination.check [s.resid.nlpOverall] s.iter
  let s := { s with termination := termination }
  match verdict with
  | some status =>
    set (s, o)
    return some status
  | none =>
    let s := s.updateBarrier c
    let (stop, o) := obs.onIteration (s.info c) o
    set (s, o)
    if stop then return some .userStopped
    (advance c).within (·.1) (fun s (_, o) => (s, o)) id
    return none

/-- Passes until one of them ends the run. The iteration budget ends it after `maxIter + 1`. -/
def passes (c : Setup α σ d) (obs : Observer α d ω) :
    Nat → Step (Failure α) (State α σ d × ω) Status
  | 0 => return .maxIterExceeded
  | left + 1 => do
    match ← pass c obs with
    | some status => return status
    | none => passes c obs left

def iterations (c : Setup α σ d) (obs : Observer α d ω) :
    Step (Failure α) (State α σ d × ω) Status := do
  modify fun (s, o) => ((s.recordFrom c 2 .interiorHeader).recordFrom c 2 .interiorRule, o)
  passes c obs (c.settings.maxIter + 1)

def statusOf : Failure α → Status
  | .evaluation _ => .errorInEvaluation
  | .newton _ => .linearSolverFailure
  | .lineSearch _ => .steplengthTooSmall
  | .invalidProblem _ | .invalidOption _ => .incompleteInit

def State.stopped (s : State α σ d) (c : Setup α σ d) (cause : Failure α) : Status × State α σ d :=
  (statusOf cause, s.recordFrom c 1 (.interiorStopped s.iter cause))

def State.startStopped (s : State α σ d) (c : Setup α σ d) (cause : Failure α) :
    Status × State α σ d :=
  match cause with
  | .evaluation _ => s.stopped c cause
  | _ => (.incompleteInit, s.record (.initializationFailed cause))

def outcome (c : Setup α σ d) (obs : Observer α d ω) (s : State α σ d) (o : ω) :
    Status × State α σ d × ω :=
  match (startingProcedure c).outcome s with
  | (.error cause, s) =>
    let (status, s) := s.startStopped c cause
    (status, s, o)
  | (.ok (), s) =>
    match (iterations c obs).outcome (s, o) with
    | (.ok status, (s, o)) => (status, s, o)
    | (.error cause, (s, o)) =>
      let (status, s) := s.stopped c cause
      (status, s, o)

namespace Engine

def useExact (p : Problem α σ d) (settings : InteriorSettings α) : Except (Failure α) Bool :=
  match settings.hessian with
  | .auto => .ok p.providesHessian
  | .quasiNewton => .ok false
  | .exact => if p.providesHessian then .ok true else .error (.invalidOption .noHessian)

def create (p : Problem α σ d) (settings : InteriorSettings α) :
    Step (Failure α) (World α σ) (Engine α σ d) := .ofOutcome fun w =>
  match Dims.validate d with
  | .error cause => (.error (.invalidProblem cause), w)
  | .ok () =>
    let (bounds, inner) := (Bounds.ofProblem p (.ofSettings settings)).run w.problem
    let w := { w with problem := inner }
    match bounds with
    | .error cause => (.error (.invalidProblem cause), w)
    | .ok bounds =>
      let w := if 0 < bounds.relaxedFixed ∧ 1 ≤ settings.verbosity then
        w.record (.relaxedFixed bounds.relaxedFixed) else w
      match useExact p settings with
      | .error cause => (.error cause, w)
      | .ok exact =>
        let setup := ⟨p, settings, bounds.relax settings.boundRelaxFactor⟩
        (.ok ⟨setup, .initial settings exact w⟩, w)

def start (e : Engine α σ d) : Except (Failure α) Unit × Engine α σ d :=
  let (r, s) := (startingProcedure e.setup).outcome e.state
  (r, { e with state := s })

/-- Solve, reporting to an observer. Failures end the run with a status. -/
def run (e : Engine α σ d) (obs : Observer α d ω) (o : ω) : SolveResult α d × Engine α σ d × ω :=
  let c := e.setup
  let s := { e.state with status := .pending, iter := 0, alphaPrimal := 0, alphaDual := 0 }
  let s := s.recordFrom c 1 (.interiorStarted d c.bounds.count s.curvature.isExact)
  let (status, s, o) := outcome c obs s o
  let s := { s with status := status }
  let res := s.result
  let s := s.recordFrom c 1 (.interiorFinished status s.iter res.obj s.resid.nlpOverall)
  (res, { e with state := s }, obs.onSolution res o)

end Engine

end SmoothOpt.Barrier
