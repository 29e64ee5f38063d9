import SmoothOpt.Failure
import SmoothOpt.Settings

/-!
Setting parameters by name.

An option name and an offered value determine an *assignment*, a change of the settings, or the
reason why there is none. The settings themselves play no part in that decision, so a refused
value leaves them as they are and an accepted one changes the single field its name denotes.
-/
namespace SmoothOpt

open Scalar

/-- The rest of a name behind a leading part, if it starts with that part. -/
def stripLead? (lead name : String) : Option String :=
  if lead.toList.isPrefixOf name.toList then some (String.ofList (name.toList.drop lead.length))
  else none

namespace OptionValue

variable {α : Type} [Scalar α]

/-- A number: finite, or positive infinity. -/
def number (name : String) : OptionValue α → Except (OptionFault α) α
  | numeric v =>
    if isFinite v || equals v infinity then .ok v else .error (.notNumber name (.numeric v))
  | integer v => .ok (v : α)
  | text s => .error (.notNumber name (.text s))

/-- A number in `[lo, hi]`; without `hi`, a number from `lo` on. -/
def inRange (name : String) (lo : α) (hi : Option α) (value : OptionValue α) :
    Except (OptionFault α) α := do
  let v ← value.number name
  if lo ≤ v ∧ (∀ h ∈ hi, v ≤ h) then .ok v else .error (.outsideRange name lo hi v)

def positive (name : String) (value : OptionValue α) : Except (OptionFault α) α := do
  let v ← value.inRange name 0 none
  if 0 < v then .ok v else .error (.notPositive name)

def nonNegative (name : String) (value : OptionValue α) : Except (OptionFault α) α :=
  value.inRange name 0 none

def openUnit (name : String) (value : OptionValue α) : Except (OptionFault α) α := do
  let v ← value.number name
  if 0 < v ∧ v < 1 then .ok v else .error (.outsideUnit name v)

def count (name : String) : OptionValue α → Except (OptionFault α) Nat
  | integer v => if 0 ≤ v then .ok v.toNat else .error (.notCount name (.integer v))
  | other => .error (.notCount name other)

/-- A log level; levels beyond 255 count as 255. -/
def level (name : String) (value : OptionValue α) : Except (OptionFault α) Nat := do
  return min (← value.count name) 255

/-- One of the listed keywords, with the choice it stands for. -/
def keyword {β : Type} (name : String) (words : List (String × β)) :
    OptionValue α → Except (OptionFault α) β
  | text s => match words.lookup s with
    | some choice => .ok choice
    | none => .error (.badKeyword name s)
  | other => .error (.notKeyword name other)

end OptionValue

namespace InteriorSettings

variable {α : Type} [Scalar α]

def assignment (name : String) (value : OptionValue α) :
    Except (OptionFault α) (InteriorSettings α → InteriorSettings α) :=
  match name with
  | "tolerance" => do let v ← value.positive name; return ({ · with tolerance := v })
  | "rel_tolerance" => do let v ← value.nonNegative name; return ({ · with relTolerance := v })
  | "acceptable_tolerance" => do
    let v ← value.positive name; return ({ · with acceptableTolerance := v })
  | "acceptable_iterations" => do
    let v ← value.count name; return ({ · with acceptableIterations := v })
  | "max_iter" => do let v ← value.count name; return ({ · with maxIter := v })
  | "mu0" => do let v ← value.positive name; return ({ · with mu0 := v })
  | "kappa_mu" => do let v ← value.openUnit name; return ({ · with kappaMu := v })
  | "theta_mu" => do
    let v ← value.inRange name 1 (some 2.0); return ({ · with thetaMu := v })
  | "tau_min" => do let v ← value.openUnit name; return ({ · with tauMin := v })
  | "kappa_eps" => do let v ← value.positive name; return ({ · with kappaEps := v })
  | "kappa1" => do let v ← value.positive name; return ({ · with kappa1 := v })
  | "kappa2" => do
    let v ← value.inRange name 0 (some 0.5); return ({ · with kappa2 := v })
  | "p_smax" => do let v ← value.positive name; return ({ · with pSmax := v })
  | "gamma_theta" => do let v ← value.openUnit name; return ({ · with gammaTheta := v })
  | "gamma_phi" => do let v ← value.openUnit name; return ({ · with gammaPhi := v })
  | "s_theta" => do let v ← value.positive name; return ({ · with sTheta := v })
  | "s_phi" => do let v ← value.positive name; return ({ · with sPhi := v })
  | "delta" => do let v ← value.positive name; return ({ · with delta := v })
  | "eta_phi" => do
    let v ← value.inRange name 0 (some 0.5); return ({ · with etaPhi := v })
  | "gamma_alpha" => do let v ← value.openUnit name; return ({ · with gammaAlpha := v })
  | "max_ls_backtracks" => do let v ← value.count name; return ({ · with maxBacktracks := v })
  | "kappa_Sigma" | "kappa_sigma" => do
    let v ← value.inRange name 1 none; return ({ · with kappaSigma := v })
  | "dualsUpdateType" | "duals_update_type" => do
    let v ← value.keyword name
      [("lsq", .lsq), ("0", .lsq), ("newton", .newton), ("1", .newton)]
    return ({ · with multiplierUpdate := v })
  | "dualsInitialization" | "dualsInitializ" | "duals_initialization" => do
    let v ← value.keyword name
      [("lsq", .lsq), ("0", .lsq), ("constant", .constant), ("1", .constant)]
    return ({ · with multiplierStart := v })
  | "duals_init_value" => do let v ← value.number name; return ({ · with multiplierInit := v })
  | "constr_mult_init_max" => do
    let v ← value.nonNegative name; return ({ · with multiplierInitMax := v })
  | "hessian" | "Hessian" => do
    let v ← value.keyword name
      [("auto", .auto), ("exact", .exact), ("analytical_exact", .exact),
        ("quasinewton", .quasiNewton), ("quasi_newton", .quasiNewton),
        ("quasinewton_approx", .quasiNewton)]
    return ({ · with hessian := v })
  | "fixed_var" => do
    let v ← value.keyword name [("none", .error), ("error", .error), ("relax", .relax)]
    return ({ · with fixedVar := v })
  | "fixed_var_tolerance" => do
    let v ← value.nonNegative name; return ({ · with fixedVarTolerance := v })
  | "fixed_var_perturb" => do
    let v ← value.positive name; return ({ · with fixedVarPerturb := v })
  | "bound_relax_factor" => do
    let v ← value.nonNegative name; return ({ · with boundRelaxFactor := v })
  | "delta_w_init" => do let v ← value.positive name; return ({ · with deltaWInit := v })
  | "delta_w_max" => do let v ← value.positive name; return ({ · with deltaWMax := v })
  | "delta_c" => do let v ← value.nonNegative name; return ({ · with deltaC := v })
  | "verbosity_level" | "verbosity" => do
    let v ← value.level name; return ({ · with verbosity := v })
  | _ => .error (.unknown name)

def setOption (s : InteriorSettings α) (name : String) (value : OptionValue α) :
    Except (OptionFault α) (InteriorSettings α) :=
  (assignment name value).map (· s)

end InteriorSettings

namespace PenaltySettings

variable {α : Type} [Scalar α]

def outerAssignment (name : String) (value : OptionValue α) :
    Except (OptionFault α) (PenaltySettings α → PenaltySettings α) :=
  match name with
  | "tolerance" => do let v ← value.positive name; return ({ · with tolerance := v })
  | "rel_tolerance" => do let v ← value.nonNegative name; return ({ · with relTolerance := v })
  | "acceptable_tolerance" => do
    let v ← value.positive name; return ({ · with acceptableTolerance := v })
  | "acceptable_iterations" => do
    let v ← value.count name; return ({ · with acceptableIterations := v })
  | "max_iter" => do let v ← value.count name; return ({ · with maxIter := v })
  | "rho0" => do let v ← value.positive name; return ({ · with rho0 := v })
  | "rho_max" => do let v ← value.positive name; return ({ · with rhoMax := v })
  | "rho_increase" => do
    let v ← value.inRange name 1 none; return ({ · with rhoIncrease := v })
  | "penalty_update" => do
    let v ← value.keyword name
      [("bounded_geometric", .boundedGeometric), ("min", .boundedGeometric),
        ("saturating", .saturating), ("max", .saturating)]
    return ({ · with growth := v })
  | "lambda0" => do let v ← value.number name; return ({ · with lambda0 := v })
  | "stop_on_inner_failure" => do
    let v ← value.keyword name
      [("yes", true), ("true", true), ("1", true), ("no", false), ("false", false), ("0", false)]
    return ({ · with stopOnInnerFailure := v })
  | "verbosity_level" | "verbosity" => do
    let v ← value.level name; return ({ · with verbosity := v })
  | _ => .error (.unknown name)

/-- The change of settings an option stands for. A name that starts with `inner.` sets the
subproblem's option of the remaining name. -/
def assignment (name : String) (value : OptionValue α) :
    Except (OptionFault α) (PenaltySettings α → PenaltySettings α) :=
  match stripLead? "inner." name with
  | some rest => (InteriorSettings.assignment rest value).map fun change s =>
      { s with inner := change s.inner }
  | none => outerAssignment name value

def setOption (s : PenaltySettings α) (name : String) (value : OptionValue α) :
    Except (OptionFault α) (PenaltySettings α) :=
  (assignment name value).map (· s)

end PenaltySettings

end SmoothOpt
