import SmoothOpt.Barrier.Engine
import SmoothOpt.Penalty.Update
import SmoothOpt.Penalty.View

/-!
The augmented Lagrangian method.

Each major iteration minimizes the augmented Lagrangian in variables and slacks with a fresh
interior point engine, then moves the multiplier estimates and the penalty parameter. Convergence
is measured on the penalty vector and on the projected gradient of the augmented Lagrangian.
-/
namespace SmoothOpt.Penalty

open Scalar Linear

structure Setup (α σ : Type) (d : Dims) where
  problem : Problem α σ d
  settings : PenaltySettings α

structure State (α σ : Type) (d : Dims) where
  world : World α σ
  view : View α d
  /-- Current point, variables and slacks. -/
  z : Vector α (d.n + d.mIneq)
  lambda : Vector α (entryCount d)
  rho : α
  penalty : Vector α (entryCount d)
  obj : α
  errFeas : α
  errOptim : α
  zl : Vector α d.n
  zu : Vector α d.n
  termination : Termination α
  status : Status
  iter : Nat
  innerIters : Nat
  innerStatuses : List Status
  lastInner : Option Status

structure Engine (α σ : Type) (d : Dims) where
  setup : Setup α σ d
  state : State α σ d

variable {α σ ω : Type} [Scalar α] {d : Dims}

namespace State

def record (s : State α σ d) (e : Event α) : State α σ d := { s with world := s.world.record e }

def recordFrom (s : State α σ d) (c : Setup α σ d) (verbosity : Nat) (e : Event α) :
    State α σ d :=
  if verbosity ≤ c.settings.verbosity then s.record e else s

def initial (settings : PenaltySettings α) (view : View α d) (w : World α σ) : State α σ d where
  world := w
  view := view
  z := Vector.replicate _ 0
  lambda := Vector.replicate _ settings.lambda0
  rho := settings.rho0
  penalty := Vector.replicate _ 0
  obj := 0
  errFeas := 0
  errOptim := 0
  zl := Vector.replicate _ 0
  zu := Vector.replicate _ 0
  termination := .ofPenalty settings
  status := .solveNotCalled
  iter := 0
  innerIters := 0
  innerStatuses := []
  lastInner := none

def solution (s : State α σ d) : Vector α d.n := variablePart s.z

def info (s : State α σ d) : IterationInfo α where
  iter := s.iter
  obj := s.obj
  phi := s.obj
  errOverall := maxNum s.errFeas s.errOptim
  errFeas := s.errFeas
  errOptim := s.errOptim
  mu := 0
  rho := s.rho
  alphaPrimal := 0
  alphaDual := 0
  filterSize := 0
  innerStatus := s.lastInner

/-- The result the state stands for; its constraint multipliers are the first-order estimates. -/
def result (s : State α σ d) : SolveResult α d where
  status := s.status
  x := s.solution
  yc := equalityPart (s.view.multiplierEstimate s.penalty)
  yd := inequalityPart (s.view.multiplierEstimate s.penalty)
  zl := s.zl
  zu := s.zu
  obj := s.obj
  info :=
    { iters := s.iter
      errOptim := s.errOptim
      errFeas := s.errFeas
      errComplem := 0
      errOverall := maxNum s.errFeas s.errOptim
      mu := 0
      rho := s.rho
      filterSize := 0
      innerIters := s.innerIters
      innerStatuses := s.innerStatuses
      primalBumps := 0 }

/-- The current point becomes the starting point of the next subproblem. -/
def publishStart (s : State α σ d) : State α σ d := { s with view := { s.view with start := s.z } }

/-- Other multipliers and another penalty parameter, for the loop and for the view. -/
def withParameters (s : State α σ d) (lambda : Vector α (entryCount d)) (rho : α) : State α σ d :=
  { s with lambda := lambda, rho := rho, view := { s.view with lambda := lambda, rho := rho } }

def advanceParameters (s : State α σ d) (c : Setup α σ d) : State α σ d :=
  s.withParameters (updatedMultipliers s.lambda s.penalty s.rho)
    (updatedPenalty c.settings.growth s.rho c.settings.rhoIncrease c.settings.rhoMax)

def check (s : State α σ d) : Option Status × State α σ d :=
  let (verdict, t) := s.termination.check [s.errFeas, s.errOptim] s.iter
  (verdict, { s with termination := t })

/-- The iteration's line in the log, under a header every ten lines. -/
def recordIteration (s : State α σ d) (c : Setup α σ d) : State α σ d :=
  let s := if s.iter % 10 = 0 then s.recordFrom c 2 .penaltyHeader else s
  s.recordFrom c 2 (.penaltyIteration s.iter s.obj s.errFeas s.errOptim s.rho s.innerIters)

end State

abbrev Run (α σ : Type) (d : Dims) (β : Type) := Step (Failure α) (State α σ d) β

def calling {β : Type} (call : State α σ d → StateM σ β) : Run α σ d β := .ofOutcome fun s =>
  let (r, w) := (call s).run s.world.problem
  (.ok r, { s with world := { s.world with problem := w } })

def evaluateObjective (c : Setup α σ d) : Run α σ d Unit := do
  let (ok, f) ← calling fun s => View.userObjective c.problem s.z s.obj
  modify ({ · with obj := f })
  if !ok then throw (.evaluation .objective)

def evaluateErrors (c : Setup α σ d) : Run α σ d Unit := do
  match ← calling fun s => s.view.residuals c.problem s.z with
  | none => throw (.evaluation .residuals)
  | some (penalty, gradient) =>
    modify ({ · with penalty := penalty })
    if !allFinite gradient.toList then throw (.evaluation .residuals)
    modify ({ · with
      errFeas := infNorm penalty.toList, errOptim := infNorm gradient.toList })

/-- Starting point, multipliers, penalty parameter and errors; a status if the start already ends
the run. -/
def prepare (c : Setup α σ d) : Run α σ d (Option Status) := do
  let (ok, z) ← calling fun s => s.view.userStart c.problem s.z
  modify ({ · with z := z })
  if !ok then throw (.invalidProblem .startFailed)
  modify fun s => s.publishStart.withParameters
    (Vector.replicate _ c.settings.lambda0) c.settings.rho0
  evaluateObjective c
  evaluateErrors c
  modify ({ · with termination := .ofPenalty c.settings })
  let (verdict, s) := (← get).check
  let s := { s with termination := s.termination.recordInitial [s.errFeas, s.errOptim] }
  set (s.recordFrom c 3 (.penaltyStart s.obj s.errFeas s.errOptim))
  return verdict

variable [DenseSolver α]

/-- Take over the result of a subproblem. A point that is not finite is not taken. -/
def State.takeInner (s : State α σ d) (res : SolveResult α (boxed d)) : State α σ d :=
  let s := { s with
    innerIters := s.innerIters + res.info.iters
    innerStatuses := s.innerStatuses ++ [res.status]
    lastInner := some res.status }
  let s := if res.status.isSuccess then s else s.record (.innerEnded s.iter res.status)
  if allFinite res.x.toList then
    { s with z := res.x, zl := variablePart res.zl, zu := variablePart res.zu }
  else s

/-- Minimize the current augmented Lagrangian from the current point. -/
def solveSubproblem (c : Setup α σ d) : Run α σ d Status := .ofOutcome fun s =>
  match (Barrier.Engine.create (s.view.problem c.problem) c.settings.inner).outcome s.world with
  | (.error cause, w) => (.error cause, { s with world := w })
  | (.ok engine, _) =>
    let (res, engine, _) := engine.run Observer.silent ()
    (.ok res.status, State.takeInner { s with world := engine.state.world } res)

/-- One major iteration: a status that ends the run, or none. -/
def pass (c : Setup α σ d) (obs : Observer α d ω) :
    Step (Failure α) (State α σ d × ω) (Option Status) := do
  let (s, o) ← get
  let s := s.recordIteration c
  let (stop, o) := obs.onIteration s.info o
  set (s, o)
  if stop then return some .userStopped
  let inner : Run α σ d (Option Status) := do
    let status ← solveSubproblem c
    modify fun s => { s with iter := s.iter + 1 }
    evaluateObjective c
    evaluateErrors c
    if status.isFailure && c.settings.stopOnInnerFailure then return some .innerSolveFailed
    let (verdict, s) := (← get).check
    set s
    if verdict.isSome then return verdict
    modify fun s => s.publishStart.advanceParameters c
    return none
  inner.within (·.1) (fun s (_, o) => (s, o)) id

/-- Major iterations until one of them ends the run. The iteration budget ends it after
`maxIter`. -/
def passes (c : Setup α σ d) (obs : Observer α d ω) :
    Nat → Step (Failure α) (State α σ d × ω) Status
  | 0 => return .maxIterExceeded
  | left + 1 => do
    match ← pass c obs with
    | some status => return status
    | none => passes c obs left

def State.stopped (s : State α σ d) (c : Setup α σ d) (cause : Failure α) : Status × State α σ d :=
  (Barrier.statusOf cause, s.recordFrom c 1 (.penaltyStopped s.iter cause))

def State.startStopped (s : State α σ d) (c : Setup α σ d) (cause : Failure α) :
    Status × State α σ d :=
  match cause with
  | .evaluation _ => s.stopped c cause
  | _ => (.incompleteInit, s.record (.initializationFailed cause))

def outcome (c : Setup α σ d) (obs : Observer α d ω) (s : State α σ d) (o : ω) :
    Status × State α σ d × ω :=
  match (prepare c).outcome s with
  | (.error cause, s) =>
    let (status, s) := s.startStopped c cause
    (status, s, o)
  | (.ok (some status), s) => (status, s, o)
  | (.ok none, s) =>
    match (passes c obs c.settings.maxIter).outcome (s, o) with
    | (.ok status, (s, o)) => (status, s, o)
    | (.error cause, (s, o)) =>
      let (status, s) := s.stopped c cause
      (status, s, o)

namespace Engine

def create (p : Problem α σ d) (settings : PenaltySettings α) :
    Step (Failure α) (World α σ) (Engine α σ d) := .ofOutcome fun w =>
  if settings.rho0 ≤ 0 ∨ !isFinite settings.rho0 then
    (.error (.invalidOption (.penaltyNotPositive settings.rho0)), w)
  else
    let (view, inner) := (View.create p settings.inner).run w.problem
    let w := { w with problem := inner }
    match view with
    | .error cause => (.error (.invalidProblem cause), w)
    | .ok view => (.ok ⟨⟨p, settings⟩, .initial settings view w⟩, w)

/-- Solve, reporting every major iteration to an observer. -/
def run (e : Engine α σ d) (obs : Observer α d ω) (o : ω) : SolveResult α d × Engine α σ d × ω :=
  let c := e.setup
  let s := { e.state with
    status := .pending, iter := 0, innerIters := 0, innerStatuses := [], lastInner := none }
  let s := s.recordFrom c 1 (.penaltyStarted d c.settings.rho0 c.settings.growth)
  let (status, s, o) := outcome c obs s o
  let s := { s with status := status }
  let res := s.result
  let s := s.recordFrom c 1
    (.penaltyFinished status s.iter s.innerIters res.obj s.errFeas s.errOptim)
  (res, { e with state := s }, obs.onSolution res o)

end Engine

end SmoothOpt.Penalty
