/-!
How a run of a solver stands or ended.
-/
namespace SmoothOpt

inductive Status where
  | pending
  | success
  /-- Every error is below the relative tolerance times its starting value. -/
  | successRelTol
  /-- The acceptable tolerance held for the required number of checks in a row. -/
  | acceptableLevel
  | maxIterExceeded
  | incompleteInit
  | userStopped
  | solveNotCalled
  | errorInEvaluation
  | steplengthTooSmall
  | linearSolverFailure
  | innerSolveFailed
  deriving DecidableEq, Repr

namespace Status

def all : List Status :=
  [pending, success, successRelTol, acceptableLevel, maxIterExceeded, incompleteInit, userStopped,
    solveNotCalled, errorInEvaluation, steplengthTooSmall, linearSolverFailure, innerSolveFailed]

def isSuccess : Status → Bool
  | success | successRelTol | acceptableLevel => true
  | _ => false

/-- A hard failure; neither an exhausted iteration budget nor a requested stop. -/
def isFailure : Status → Bool
  | incompleteInit | errorInEvaluation | steplengthTooSmall | linearSolverFailure
  | innerSolveFailed => true
  | _ => false

/-- Identifier used in machine-readable summaries. -/
def name : Status → String
  | pending => "Pending"
  | success => "Success"
  | successRelTol => "SuccessRelTol"
  | acceptableLevel => "AcceptableLevel"
  | maxIterExceeded => "MaxIterExceeded"
  | incompleteInit => "IncompleteInit"
  | userStopped => "UserStopped"
  | solveNotCalled => "SolveNotCalled"
  | errorInEvaluation => "ErrorInEvaluation"
  | steplengthTooSmall => "SteplengthTooSmall"
  | linearSolverFailure => "LinearSolverFailure"
  | innerSolveFailed => "InnerSolveFailed"

/-- Wording used in tables and messages. -/
def text : Status → String
  | pending => "Pending"
  | success => "Success"
  | successRelTol => "Success (relative tolerance)"
  | acceptableLevel => "Acceptable Level"
  | maxIterExceeded => "Max Iterations Exceeded"
  | incompleteInit => "Incomplete Initialization"
  | userStopped => "User Stopped"
  | solveNotCalled => "Solve Not Called"
  | errorInEvaluation => "Error In Evaluation"
  | steplengthTooSmall => "Steplength Too Small"
  | linearSolverFailure => "Linear Solver Failure"
  | innerSolveFailed => "Inner Solve Failed"

end Status

end SmoothOpt
