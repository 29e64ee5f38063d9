import SmoothOpt.Event
import SmoothOpt.Failure.Message

/-!
The wording of every log record, for double precision values.
-/
namespace SmoothOpt

open Decimal

def Level.name : Level → String
  | .trace => "TRACE"
  | .debug => "DEBUG"
  | .info => "INFO"
  | .warn => "WARN"

def PenaltyGrowth.name : PenaltyGrowth → String
  | .boundedGeometric => "BoundedGeometric"
  | .saturating => "Saturating"

def Newton.Inertia.message (i : Newton.Inertia) : String :=
  "Inertia \x7b pos: " ++ toString i.pos ++ ", neg: " ++ toString i.neg ++ ", zero: "
    ++ toString i.zero ++ " \x7d"

def Dims.message (d : Dims) : String :=
  "n = " ++ toString d.n ++ ", m_eq = " ++ toString d.mEq ++ ", m_ineq = " ++ toString d.mIneq

def columns (cells : List (Nat × String)) : String :=
  " ".intercalate (cells.map fun (width, s) => padLeft width s)

namespace Event

def message : Event Float → String
  | relaxedFixed count =>
    "relaxed " ++ toString count ++ " fixed variables or equal-bound inequalities"
  | interiorStarted dims bounds exactHessian =>
    "Filter-IPM: " ++ dims.message ++ ", bounds = " ++ toString bounds ++ ", hessian = "
      ++ (if exactHessian then "exact" else "quasi-Newton")
  | interiorFinished status iter obj error =>
    "Filter-IPM: " ++ status.text ++ " after " ++ toString iter ++ " iterations, obj = "
      ++ scientific 8 obj ++ ", error = " ++ scientific 3 error
  | interiorStopped iter cause => "iteration " ++ toString iter ++ ": " ++ cause.message
  | initializationFailed cause => "initialization failed: " ++ cause.message
  | interiorStart f theta0 error ycNorm =>
    -- adding zero drops the sign of a negative zero
    "start: f = " ++ scientific 6 f ++ ", theta0 = " ++ scientific 3 (theta0 + 0.0)
      ++ ", err0 = " ++ scientific 3 error ++ ", |yc| = " ++ scientific 3 ycNorm
  | interiorHeader =>
    columns [(5, "iter"), (15, "objective"), (10, "inf_pr"), (10, "inf_du"), (10, "mu"),
      (10, "alpha_du"), (10, "alpha_pr"), (4, "ls")]
  | interiorRule => String.ofList (List.replicate 82 '-')
  | interiorIteration iter f feas optim mu alphaDual alphaPrimal backtracks =>
    columns [(5, toString iter), (15, scientific 8 f), (10, scientific 3 feas),
      (10, scientific 3 optim), (10, scientific 3 mu), (10, scientific 3 alphaDual),
      (10, scientific 3 alphaPrimal), (4, toString backtracks)]
  | barrierDecreased mu tau error =>
    "mu -> " ++ scientific 3 mu ++ ", tau -> " ++ fixed 6 tau ++ ", barrier error "
      ++ scientific 3 error
  | inertiaCorrected deltaW deltaC =>
    "inertia correction: delta_w = " ++ scientific 2 deltaW ++ ", delta_c = "
      ++ scientific 2 deltaC
  | inertiaRejected inertia deltaW =>
    "inertia " ++ inertia.message ++ " with delta_w = " ++ scientific 2 deltaW
  | stepRejected alpha theta thetaTrial phi phiTrial =>
    "reject alpha = " ++ scientific 3 alpha ++ ": theta " ++ scientific 3 theta ++ " -> "
      ++ scientific 3 thetaTrial ++ ", phi " ++ scientific 6 phi ++ " -> " ++ scientific 6 phiTrial
  | estimateFailed => "LSQ multiplier estimate failed; taking the Newton step"
  | startEstimateRejected => "initial LSQ multipliers rejected; starting from zero"
  | penaltyStarted dims rho0 growth =>
    "AugLagr: " ++ dims.message ++ ", rho0 = " ++ scientific 1 rho0 ++ ", penalty update = "
      ++ growth.name
  | penaltyFinished status iter innerIters obj feas optim =>
    "AugLagr: " ++ status.text ++ " after " ++ toString iter ++ " iterations ("
      ++ toString innerIters ++ " inner), obj = " ++ scientific 8 obj ++ ", feas = "
      ++ scientific 3 feas ++ ", optim = " ++ scientific 3 optim
  | penaltyStopped iter cause => "AugLagr iteration " ++ toString iter ++ ": " ++ cause.message
  | penaltyStart f feas optim =>
    "start: f = " ++ scientific 6 f ++ ", feas0 = " ++ scientific 3 feas ++ ", optim0 = "
      ++ scientific 3 optim
  | penaltyHeader =>
    columns [(5, "iter"), (15, "objective"), (10, "inf_pr"), (10, "inf_du"), (8, "lg(rho)"),
      (5, "inner")]
  | penaltyIteration iter f feas optim rho innerIters =>
    columns [(5, toString iter), (15, scientific 8 f), (10, scientific 3 feas),
      (10, scientific 3 optim), (8, fixed 2 rho.log10), (5, toString innerIters)]
  | innerEnded iter status =>
    "AugLagr iteration " ++ toString iter ++ ": inner solve ended with " ++ status.text

def line (e : Event Float) : String := e.level.name ++ " " ++ e.message

end Event

end SmoothOpt
