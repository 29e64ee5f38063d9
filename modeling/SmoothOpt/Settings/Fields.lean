import SmoothOpt.Scalar.Double
import SmoothOpt.Settings
import SmoothOpt.Text.Document

/-!
The document form of the settings: the name of every field, how it is read and how it is written.

In a document every field is optional and unknown names are ignored. Values are checked for their
kind only: ranges are the business of the named options.
-/
namespace SmoothOpt

open Text

/-- Counts fit a 64-bit word. -/
def countField {ρ : Type} (name : String) (get : ρ → Nat) (set : Nat → ρ → ρ) : RecordField ρ :=
  RecordField.of name (Document.natBelow? 18446744073709551616) set (fun r => .integer (get r))

def realField {ρ : Type} (name : String) (get : ρ → Float) (set : Float → ρ → ρ) : RecordField ρ :=
  RecordField.of name Document.real? set (fun r => .real (get r))

def wordField {ρ β : Type} [DecidableEq β] (name : String) (words : List (String × β)) (get : ρ → β)
    (set : β → ρ → ρ) : RecordField ρ :=
  RecordField.of name (Document.word? words) set (fun r => .ofWord words (get r))

/-- Log levels fit a byte. -/
def levelField {ρ : Type} (get : ρ → Nat) (set : Nat → ρ → ρ) : RecordField ρ :=
  RecordField.of "verbosity" (Document.natBelow? 256) set (fun r => .integer (get r))

def InteriorSettings.fields : List (RecordField (InteriorSettings Float)) :=
  [realField "tolerance" (·.tolerance) fun v s => { s with tolerance := v },
   realField "rel_tolerance" (·.relTolerance) fun v s => { s with relTolerance := v },
   realField "acceptable_tolerance" (·.acceptableTolerance)
     fun v s => { s with acceptableTolerance := v },
   countField "acceptable_iterations" (·.acceptableIterations)
     fun v s => { s with acceptableIterations := v },
   countField "max_iter" (·.maxIter) fun v s => { s with maxIter := v },
   realField "mu0" (·.mu0) fun v s => { s with mu0 := v },
   realField "kappa_mu" (·.kappaMu) fun v s => { s with kappaMu := v },
   realField "theta_mu" (·.thetaMu) fun v s => { s with thetaMu := v },
   realField "tau_min" (·.tauMin) fun v s => { s with tauMin := v },
   realField "kappa_eps" (·.kappaEps) fun v s => { s with kappaEps := v },
   realField "kappa1" (·.kappa1) fun v s => { s with kappa1 := v },
   realField "kappa2" (·.kappa2) fun v s => { s with kappa2 := v },
   realField "p_smax" (·.pSmax) fun v s => { s with pSmax := v },
   realField "gamma_theta" (·.gammaTheta) fun v s => { s with gammaTheta := v },
   realField "gamma_phi" (·.gammaPhi) fun v s => { s with gammaPhi := v },
   realField "s_theta" (·.sTheta) fun v s => { s with sTheta := v },
   realField "s_phi" (·.sPhi) fun v s => { s with sPhi := v },
   realField "delta" (·.delta) fun v s => { s with delta := v },
   realField "eta_phi" (·.etaPhi) fun v s => { s with etaPhi := v },
   realField "gamma_alpha" (·.gammaAlpha) fun v s => { s with gammaAlpha := v },
   countField "max_ls_backtracks" (·.maxBacktracks) fun v s => { s with maxBacktracks := v },
   realField "kappa_sigma" (·.kappaSigma) fun v s => { s with kappaSigma := v },
   wordField "duals_update_type" [("lsq", .lsq), ("newton", .newton)]
     (·.multiplierUpdate) fun v s => { s with multiplierUpdate := v },
   wordField "duals_initialization" [("lsq", .lsq), ("constant", .constant)]
     (·.multiplierStart) fun v s => { s with multiplierStart := v },
   realField "duals_init_value" (·.multiplierInit) fun v s => { s with multiplierInit := v },
   realField "constr_mult_init_max" (·.multiplierInitMax)
     fun v s => { s with multiplierInitMax := v },
   wordField "hessian" [("auto", .auto), ("exact", .exact), ("quasinewton", .quasiNewton)]
     (·.hessian) fun v s => { s with hessian := v },
   wordField "fixed_var" [("error", .error), ("relax", .relax)]
     (·.fixedVar) fun v s => { s with fixedVar := v },
   realField "fixed_var_tolerance" (·.fixedVarTolerance)
     fun v s => { s with fixedVarTolerance := v },
   realField "fixed_var_perturb" (·.fixedVarPerturb) fun v s => { s with fixedVarPerturb := v },
   realField "bound_relax_factor" (·.boundRelaxFactor) fun v s => { s with boundRelaxFactor := v },
   realField "delta_w_init" (·.deltaWInit) fun v s => { s with deltaWInit := v },
   realField "delta_w_max" (·.deltaWMax) fun v s => { s with deltaWMax := v },
   realField "delta_c" (·.deltaC) fun v s => { s with deltaC := v },
   levelField (·.verbosity) fun v s => { s with verbosity := v }]

/-- Interior point settings from a document; what it does not mention has its default. -/
def InteriorSettings.read (doc : Document) : Option (InteriorSettings Float) :=
  readRecord InteriorSettings.fields InteriorSettings.default doc

def InteriorSettings.document (s : InteriorSettings Float) : Document :=
  writeRecord InteriorSettings.fields s

/-- The fields of the augmented Lagrangian settings, in order. A mentioned subproblem starts from
the interior point defaults. -/
def PenaltySettings.fields : List (RecordField (PenaltySettings Float)) :=
  [realField "tolerance" (·.tolerance) fun v s => { s with tolerance := v },
   realField "rel_tolerance" (·.relTolerance) fun v s => { s with relTolerance := v },
   realField "acceptable_tolerance" (·.acceptableTolerance)
     fun v s => { s with acceptableTolerance := v },
   countField "acceptable_iterations" (·.acceptableIterations)
     fun v s => { s with acceptableIterations := v },
   countField "max_iter" (·.maxIter) fun v s => { s with maxIter := v },
   realField "rho0" (·.rho0) fun v s => { s with rho0 := v },
   realField "rho_max" (·.rhoMax) fun v s => { s with rhoMax := v },
   realField "rho_increase" (·.rhoIncrease) fun v s => { s with rhoIncrease := v },
   wordField "penalty_update"
     [("bounded_geometric", .boundedGeometric), ("saturating", .saturating)]
     (·.growth) fun v s => { s with growth := v },
   realField "lambda0" (·.lambda0) fun v s => { s with lambda0 := v },
   RecordField.of "stop_on_inner_failure" Document.boolean?
     (fun v s => { s with stopOnInnerFailure := v }) (.boolean ·.stopOnInnerFailure),
   RecordField.of "inner" InteriorSettings.read (fun v s => { s with inner := v }) (·.inner.document),
   levelField (·.verbosity) fun v s => { s with verbosity := v }]

/-- Augmented Lagrangian settings from a document; what it does not mention has its default. -/
def PenaltySettings.read (doc : Document) : Option (PenaltySettings Float) :=
  readRecord PenaltySettings.fields PenaltySettings.default doc

def PenaltySettings.document (s : PenaltySettings Float) : Document :=
  writeRecord PenaltySettings.fields s

end SmoothOpt
