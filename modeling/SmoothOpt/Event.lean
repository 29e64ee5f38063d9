import SmoothOpt.Failure
import SmoothOpt.Newton.Inertia
import SmoothOpt.Settings
import SmoothOpt.Status

/-!
What a run writes to its log, as data. The wording is in `SmoothOpt.Event.Message`.
-/
namespace SmoothOpt

inductive Level where
  | trace
  | debug
  | info
  | warn
  deriving DecidableEq, Repr

inductive Event (α : Type) where
  | relaxedFixed (count : Nat)
  | interiorStarted (dims : Dims) (bounds : Nat) (exactHessian : Bool)
  | interiorFinished (status : Status) (iter : Nat) (obj error : α)
  | interiorStopped (iter : Nat) (cause : Failure α)
  | initializationFailed (cause : Failure α)
  | interiorStart (f theta0 error ycNorm : α)
  | interiorHeader
  | interiorRule
  | interiorIteration (iter : Nat) (f feas optim mu alphaDual alphaPrimal : α) (backtracks : Nat)
  | barrierDecreased (mu tau error : α)
  | inertiaCorrected (deltaW deltaC : α)
  | inertiaRejected (inertia : Newton.Inertia) (deltaW : α)
  | stepRejected (alpha theta thetaTrial phi phiTrial : α)
  /-- The Newton step replaces a failed least-squares estimate. -/
  | estimateFailed
  | startEstimateRejected
  | penaltyStarted (dims : Dims) (rho0 : α) (growth : PenaltyGrowth)
  | penaltyFinished (status : Status) (iter innerIters : Nat) (obj feas optim : α)
  | penaltyStopped (iter : Nat) (cause : Failure α)
  | penaltyStart (f feas optim : α)
  | penaltyHeader
  | penaltyIteration (iter : Nat) (f feas optim rho : α) (innerIters : Nat)
  | innerEnded (iter : Nat) (status : Status)

namespace Event

def level {α : Type} : Event α → Level
  | inertiaRejected .. | stepRejected .. => .trace
  | interiorStart .. | barrierDecreased .. | inertiaCorrected .. | estimateFailed
  | startEstimateRejected | penaltyStart .. => .debug
  | interiorStopped .. | initializationFailed .. | penaltyStopped .. | innerEnded .. => .warn
  | _ => .info

end Event

/-- The outside of a run: the private state of the problem's callbacks and the log. -/
structure World (α σ : Type) where
  problem : σ
  /-- Log records, newest first. -/
  log : List (Event α)

namespace World

variable {α σ : Type}

def record (w : World α σ) (e : Event α) : World α σ := { w with log := e :: w.log }

def history (w : World α σ) : List (Event α) := w.log.reverse

end World

end SmoothOpt
