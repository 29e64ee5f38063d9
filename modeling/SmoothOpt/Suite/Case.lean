import SmoothOpt.Linear.Solver.Double
import SmoothOpt.Penalty.Engine
import SmoothOpt.Suite.Config
import SmoothOpt.Suite.Registry

/-!
Solving test problems and summarizing the outcome.
-/
namespace SmoothOpt.Suite

open Decimal

inductive Method where
  | interior
  | penalty
  deriving DecidableEq, Repr

namespace Method

def all : List Method := [interior, penalty]

def name : Method → String
  | interior => "ipm"
  | penalty => "auglagr"

def ofName? (s : String) : Option Method := all.find? (·.name == s)

end Method

/-- Solve a problem from scratch with the interior point method. -/
def solveInterior {α σ : Type} [Scalar α] [Linear.DenseSolver α] {d : Dims} (p : Problem α σ d)
    (settings : InteriorSettings α) :
    Step (Failure α) (World α σ) (SolveResult α d) := do
  let engine ← Barrier.Engine.create p settings
  let (res, engine, _) := engine.run Observer.silent ()
  set engine.state.world
  return res

/-- Solve a problem from scratch with the augmented Lagrangian method. -/
def solvePenalty {α σ : Type} [Scalar α] [Linear.DenseSolver α] {d : Dims} (p : Problem α σ d)
    (settings : PenaltySettings α) :
    Step (Failure α) (World α σ) (SolveResult α d) := do
  let engine ← Penalty.Engine.create p settings
  let (res, engine, _) := engine.run Observer.silent ()
  set engine.state.world
  return res

def TestProblem.solve (t : TestProblem Float) (config : Config) (method : Method) :
    Except (Failure Float) (SolveResult Float t.dims) :=
  let step := match method with
    | .interior => solveInterior t.problem config.interior
    | .penalty => solvePenalty t.problem config.penalty
  (step.outcome ⟨(), []⟩).1

/-- The summary of one solved problem. A setup failure leaves undefined values. -/
structure Case where
  problem : String
  method : Method
  status : Status
  iters : Nat
  innerIters : Nat
  obj : Float
  objError : Float
  errFeas : Float
  errOptim : Float
  error : Option String

def runCase (t : TestProblem Float) (config : Config) (method : Method) : Case :=
  match t.solve config method with
  | .ok res =>
    { problem := t.name, method := method, status := res.status, iters := res.info.iters
      innerIters := res.info.innerIters, obj := res.obj, objError := t.objectiveError res.obj
      errFeas := res.info.errFeas, errOptim := res.info.errOptim, error := none }
  | .error cause =>
    { problem := t.name, method := method, status := .incompleteInit, iters := 0, innerIters := 0
      obj := 0.0 / 0.0, objError := 1.0 / 0.0, errFeas := 0.0 / 0.0, errOptim := 0.0 / 0.0
      error := some cause.message }

namespace Case

/-- Solved, and close enough to the reference. -/
def passed (c : Case) (objTol : Float) : Bool :=
  c.error.isNone && c.status.isSuccess && decide (c.objError ≤ objTol)

def head (c : Case) : String :=
  padRight 14 c.problem ++ " " ++ padRight 8 c.method.name ++ " " ++ padRight 26 c.status.text
    ++ " " ++ padLeft 6 (toString c.iters) ++ " " ++ padLeft 6 (toString c.innerIters)

def objective (c : Case) : String := scientific 8 c.obj

def mark (c : Case) (objTol : Float) : String := if c.passed objTol then "" else "  *"

def errorLine? (c : Case) : Option String := c.error.map ("    error: " ++ ·)

def row (c : Case) (objTol : Float) (milliseconds : Nat) : String :=
  c.head ++ " " ++ padLeft 16 c.objective ++ " " ++ padLeft 10 (scientific 3 c.errFeas) ++ " "
    ++ padLeft 10 (scientific 3 c.errOptim) ++ " " ++ padLeft 8 (toString milliseconds)
    ++ c.mark objTol

end Case

def tableHeader : List String :=
  [padRight 14 "problem" ++ " " ++ padRight 8 "solver" ++ " " ++ padRight 26 "status" ++ " "
     ++ padLeft 6 "iters" ++ " " ++ padLeft 6 "inner" ++ " " ++ padLeft 16 "objective" ++ " "
     ++ padLeft 10 "inf_pr" ++ " " ++ padLeft 10 "inf_du" ++ " " ++ padLeft 8 "ms",
   String.ofList (List.replicate 112 '-')]

def suiteSummary (cases : List Case) (objTol : Float) : List String :=
  let passed := cases.countP (·.passed objTol)
  ["", toString passed ++ "/" ++ toString cases.length ++ " cases solved to objective tolerance "
    ++ scientific 0 objTol]

def TestProblem.listing (t : TestProblem Float) : String :=
  padRight 14 t.name ++ " n = " ++ padLeft 3 (toString t.dims.n) ++ "  m_eq = "
    ++ padLeft 2 (toString t.dims.mEq) ++ "  m_ineq = " ++ padLeft 2 (toString t.dims.mIneq)
    ++ "  f* = " ++ scientific 8 t.optimal

end SmoothOpt.Suite
