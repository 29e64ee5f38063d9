import SmoothOpt.Proofs.Settings.Range

/-!
What a sequence of named options can do to the settings.

A call offers one value under one name. It is refused and leaves the settings as they are, or it
stores a value in the parameter that goes by that name; which of the two it is and what is stored
is the same for all settings. As every stored value has passed its check, no sequence of calls
takes a parameter out of its range or leaves an undefined number behind.
-/
namespace SmoothOpt

open Scalar

namespace Extended

theorem defined_of_le {lo a : Extended} (h : lo ≤ a) : isUndefined a = false := by
  cases a with
  | finite r => exact isUndefined_finite r
  | infinite p => exact isUndefined_infinite p
  | undefined => cases lo <;> exact h.elim

theorem defined_of_lt {lo a : Extended} (h : lo < a) : isUndefined a = false := by
  cases a with
  | finite r => exact isUndefined_finite r
  | infinite p => exact isUndefined_infinite p
  | undefined => cases lo <;> exact h.elim

end Extended

/-- A value that counts as a number is not undefined. -/
theorem OptionValue.number_defined {name : String} {value : OptionValue Extended} {v : Extended}
    (h : value.number name = .ok v) : isUndefined v = false := by
  cases value with
  | numeric u =>
    rw [OptionValue.number] at h
    split at h
    · rename_i accepted
      cases h
      obtain finite | unbounded := Bool.or_eq_true_iff.mp accepted
      · obtain ⟨r, rfl⟩ := Extended.exists_of_isFinite finite
        exact Extended.isUndefined_finite r
      · rw [equals, Bool.and_eq_true, decide_eq_true_eq, decide_eq_true_eq] at unbounded
        exact Extended.defined_of_le unbounded.2
    · cases h
  | integer n =>
    cases h
    exact Extended.isUndefined_finite n
  | text _ => cases h

theorem drop_lead (lead : String) (l : List Char) : (lead.toList ++ l).drop lead.length = l := by
  rw [← String.length_toList, List.drop_left]

theorem stripLead?_append (lead rest : String) : stripLead? lead (lead ++ rest) = some rest := by
  rw [stripLead?, if_pos (by simp), String.toList_append, drop_lead, String.ofList_toList]

theorem eq_append_of_stripLead? {lead name rest : String} (h : stripLead? lead name = some rest) :
    name = lead ++ rest := by
  rw [stripLead?] at h
  split at h
  · rename_i leads
    obtain ⟨behind, split⟩ := List.isPrefixOf_iff_prefix.mp leads
    rw [← split, drop_lead, Option.some.injEq] at h
    rw [← String.toList_inj, String.toList_append, ← h, String.toList_ofList, split]
  · cases h

section Calls

variable {ρ π φ : Type}

/-- What a call that changes settings answers, and the settings it leaves: a refused one leaves
those it found. -/
def called (set : ρ → Except φ ρ) (s : ρ) : Except φ Unit × ρ :=
  match set s with
  | .error fault => (.error fault, s)
  | .ok s' => (.ok (), s')

/-- The settings after a list of calls. -/
def reached {α : Type} (set : ρ → String → OptionValue α → Except φ ρ) (start : ρ)
    (calls : List (String × OptionValue α)) : ρ :=
  calls.foldl (fun s c => (called (set · c.1 c.2) s).2) start

/-- A call does one thing to all settings: it is refused for one reason and leaves them, or it
copies one parameter that goes by its name from one source. -/
inductive SetsOne (replace : π → ρ → ρ → ρ) (named : π → Prop) (call : ρ → Except φ Unit × ρ) :
    Prop
  | refused (fault : φ) (leaves : ∀ s, call s = (.error fault, s))
  | stored (p : π) (source : ρ) (goesBy : named p)
      (stores : ∀ s, call s = (.ok (), replace p source s))

/-- A change of settings copies one parameter that goes by the name from one source. -/
def Copies (replace : π → ρ → ρ → ρ) (named : π → Prop) (change : ρ → ρ) : Prop :=
  ∃ p source, named p ∧ ∀ s, change s = replace p source s

/-- A checked value is stored in one parameter. -/
theorem copies_stored {β : Type} {replace : π → ρ → ρ → ρ} {named : π → Prop} {x : Except φ β}
    {store : β → ρ → ρ} {change : ρ → ρ} (p : π) (start : ρ)
    (h : (do let v ← x; return store v) = .ok change) (goesBy : named p)
    (stores : ∀ v s, store v s = replace p (store v start) s) : Copies replace named change := by
  obtain ⟨v, -, stored⟩ := OptionValue.bind_ok h
  cases stored
  exact ⟨p, store v start, goesBy, stores v⟩

/-- A change that is decided without the settings, and that copies one parameter, sets one. -/
theorem setsOne_of_copies {replace : π → ρ → ρ → ρ} {named : π → Prop} {x : Except φ (ρ → ρ)}
    (copies : ∀ change, x = .ok change → Copies replace named change) :
    SetsOne replace named (called fun s => x.map (· s)) := by
  cases x with
  | error fault => exact .refused fault fun _ => rfl
  | ok change =>
    obtain ⟨p, source, goesBy, copied⟩ := copies change rfl
    exact .stored p source goesBy fun s => congrArg (Except.ok (), ·) (copied s)

/-- What every accepted change keeps, a list of calls keeps. -/
theorem reached_keeps {α : Type} {change? : String → OptionValue α → Except φ (ρ → ρ)} {start : ρ}
    {P : ρ → Prop} (accepted : ∀ {name value change s}, change? name value = .ok change →
      P s → P (change s)) (h : P start) (calls : List (String × OptionValue α)) :
    P (reached (fun s name value => (change? name value).map (· s)) start calls) := by
  refine List.foldlRecOn calls _ h fun s kept c _ => ?_
  cases offered : change? c.1 c.2 with
  | error _ => simpa [called, offered, Except.map] using kept
  | ok change => simpa [called, offered, Except.map] using accepted offered kept

end Calls

namespace InteriorSettings

open OptionValue

inductive Parameter where
  | tolerance | relTolerance | acceptableTolerance | acceptableIterations | maxIter | mu0
  | kappaMu | thetaMu | tauMin | kappaEps | kappa1 | kappa2 | pSmax | gammaTheta | gammaPhi
  | sTheta | sPhi | delta | etaPhi | gammaAlpha | maxBacktracks | kappaSigma | multiplierUpdate
  | multiplierStart | multiplierInit | multiplierInitMax | hessian | fixedVar | fixedVarTolerance
  | fixedVarPerturb | boundRelaxFactor | deltaWInit | deltaWMax | deltaC | verbosity
  deriving DecidableEq

namespace Parameter

def names : Parameter → List String
  | tolerance => ["tolerance"]
  | relTolerance => ["rel_tolerance"]
  | acceptableTolerance => ["acceptable_tolerance"]
  | acceptableIterations => ["acceptable_iterations"]
  | maxIter => ["max_iter"]
  | mu0 => ["mu0"]
  | kappaMu => ["kappa_mu"]
  | thetaMu => ["theta_mu"]
  | tauMin => ["tau_min"]
  | kappaEps => ["kappa_eps"]
  | kappa1 => ["kappa1"]
  | kappa2 => ["kappa2"]
  | pSmax => ["p_smax"]
  | gammaTheta => ["gamma_theta"]
  | gammaPhi => ["gamma_phi"]
  | sTheta => ["s_theta"]
  | sPhi => ["s_phi"]
  | delta => ["delta"]
  | etaPhi => ["eta_phi"]
  | gammaAlpha => ["gamma_alpha"]
  | maxBacktracks => ["max_ls_backtracks"]
  | kappaSigma => ["kappa_Sigma", "kappa_sigma"]
  | multiplierUpdate => ["dualsUpdateType", "duals_update_type"]
  | multiplierStart => ["dualsInitialization", "dualsInitializ", "duals_initialization"]
  | multiplierInit => ["duals_init_value"]
  | multiplierInitMax => ["constr_mult_init_max"]
  | hessian => ["hessian", "Hessian"]
  | fixedVar => ["fixed_var"]
  | fixedVarTolerance => ["fixed_var_tolerance"]
  | fixedVarPerturb => ["fixed_var_perturb"]
  | boundRelaxFactor => ["bound_relax_factor"]
  | deltaWInit => ["delta_w_init"]
  | deltaWMax => ["delta_w_max"]
  | deltaC => ["delta_c"]
  | verbosity => ["verbosity_level", "verbosity"]

def all : List Parameter :=
  [.tolerance, .relTolerance, .acceptableTolerance, .acceptableIterations, .maxIter, .mu0,
   .kappaMu, .thetaMu, .tauMin, .kappaEps, .kappa1, .kappa2, .pSmax, .gammaTheta, .gammaPhi,
   .sTheta, .sPhi, .delta, .etaPhi, .gammaAlpha, .maxBacktracks, .kappaSigma, .multiplierUpdate,
   .multiplierStart, .multiplierInit, .multiplierInitMax, .hessian, .fixedVar,
   .fixedVarTolerance, .fixedVarPerturb, .boundRelaxFactor, .deltaWInit, .deltaWMax, .deltaC,
   .verbosity]

theorem mem_all (p : Parameter) : p ∈ all := by
  cases p <;> decide

/-- No name stands for two parameters. -/
theorem names_unique {p q : Parameter} {name : String} (left : name ∈ p.names)
    (right : name ∈ q.names) : p = q := by
  have listed : ∀ p ∈ all, ∀ q ∈ all, ∀ name ∈ p.names, name ∈ q.names → p = q := by
    decide +kernel
  exact listed p (mem_all p) q (mem_all q) name left right

def replace {α : Type} (p : Parameter) (source s : InteriorSettings α) : InteriorSettings α :=
  match p with
  | tolerance => { s with tolerance := source.tolerance }
  | relTolerance => { s with relTolerance := source.relTolerance }
  | acceptableTolerance => { s with acceptableTolerance := source.acceptableTolerance }
  | acceptableIterations => { s with acceptableIterations := source.acceptableIterations }
  | maxIter => { s with maxIter := source.maxIter }
  | mu0 => { s with mu0 := source.mu0 }
  | kappaMu => { s with kappaMu := source.kappaMu }
  | thetaMu => { s with thetaMu := source.thetaMu }
  | tauMin => { s with tauMin := source.tauMin }
  | kappaEps => { s with kappaEps := source.kappaEps }
  | kappa1 => { s with kappa1 := source.kappa1 }
  | kappa2 => { s with kappa2 := source.kappa2 }
  | pSmax => { s with pSmax := source.pSmax }
  | gammaTheta => { s with gammaTheta := source.gammaTheta }
  | gammaPhi => { s with gammaPhi := source.gammaPhi }
  | sTheta => { s with sTheta := source.sTheta }
  | sPhi => { s with sPhi := source.sPhi }
  | delta => { s with delta := source.delta }
  | etaPhi => { s with etaPhi := source.etaPhi }
  | gammaAlpha => { s with gammaAlpha := source.gammaAlpha }
  | maxBacktracks => { s with maxBacktracks := source.maxBacktracks }
  | kappaSigma => { s with kappaSigma := source.kappaSigma }
  | multiplierUpdate => { s with multiplierUpdate := source.multiplierUpdate }
  | multiplierStart => { s with multiplierStart := source.multiplierStart }
  | multiplierInit => { s with multiplierInit := source.multiplierInit }
  | multiplierInitMax => { s with multiplierInitMax := source.multiplierInitMax }
  | hessian => { s with hessian := source.hessian }
  | fixedVar => { s with fixedVar := source.fixedVar }
  | fixedVarTolerance => { s with fixedVarTolerance := source.fixedVarTolerance }
  | fixedVarPerturb => { s with fixedVarPerturb := source.fixedVarPerturb }
  | boundRelaxFactor => { s with boundRelaxFactor := source.boundRelaxFactor }
  | deltaWInit => { s with deltaWInit := source.deltaWInit }
  | deltaWMax => { s with deltaWMax := source.deltaWMax }
  | deltaC => { s with deltaC := source.deltaC }
  | verbosity => { s with verbosity := source.verbosity }

end Parameter

variable {α : Type} [Scalar α] {name : String}
  {value : OptionValue α} {change : InteriorSettings α → InteriorSettings α}

/-- An option changes the parameter that goes by its name and no other. -/
theorem assignment_copies (h : assignment name value = .ok change) :
    Copies Parameter.replace (name ∈ Parameter.names ·) change := by
  unfold assignment at h
  split at h
  · exact copies_stored .tolerance default h (.head _) fun _ _ => rfl
  · exact copies_stored .relTolerance default h (.head _) fun _ _ => rfl
  · exact copies_stored .acceptableTolerance default h (.head _) fun _ _ => rfl
  · exact copies_stored .acceptableIterations default h (.head _) fun _ _ => rfl
  · exact copies_stored .maxIter default h (.head _) fun _ _ => rfl
  · exact copies_stored .mu0 default h (.head _) fun _ _ => rfl
  · exact copies_stored .kappaMu default h (.head _) fun _ _ => rfl
  · exact copies_stored .thetaMu default h (.head _) fun _ _ => rfl
  · exact copies_stored .tauMin default h (.head _) fun _ _ => rfl
  · exact copies_stored .kappaEps default h (.head _) fun _ _ => rfl
  · exact copies_stored .kappa1 default h (.head _) fun _ _ => rfl
  · exact copies_stored .kappa2 default h (.head _) fun _ _ => rfl
  · exact copies_stored .pSmax default h (.head _) fun _ _ => rfl
  · exact copies_stored .gammaTheta default h (.head _) fun _ _ => rfl
  · exact copies_stored .gammaPhi default h (.head _) fun _ _ => rfl
  · exact copies_stored .sTheta default h (.head _) fun _ _ => rfl
  · exact copies_stored .sPhi default h (.head _) fun _ _ => rfl
  · exact copies_stored .delta default h (.head _) fun _ _ => rfl
  · exact copies_stored .etaPhi default h (.head _) fun _ _ => rfl
  · exact copies_stored .gammaAlpha default h (.head _) fun _ _ => rfl
  · exact copies_stored .maxBacktracks default h (.head _) fun _ _ => rfl
  · exact copies_stored .kappaSigma default h (.head _) fun _ _ => rfl
  · exact copies_stored .kappaSigma default h (.tail _ (.head _)) fun _ _ => rfl
  · exact copies_stored .multiplierUpdate default h (.head _) fun _ _ => rfl
  · exact copies_stored .multiplierUpdate default h (.tail _ (.head _)) fun _ _ => rfl
  · exact copies_stored .multiplierStart default h (.head _) fun _ _ => rfl
  · exact copies_stored .multiplierStart default h (.tail _ (.head _)) fun _ _ => rfl
  · exact copies_stored .multiplierStart default h (.tail _ (.tail _ (.head _))) fun _ _ => rfl
  · exact copies_stored .multiplierInit default h (.head _) fun _ _ => rfl
  · exact copies_stored .multiplierInitMax default h (.head _) fun _ _ => rfl
  · exact copies_stored .hessian default h (.head _) fun _ _ => rfl
  · exact copies_stored .hessian default h (.tail _ (.head _)) fun _ _ => rfl
  · exact copies_stored .fixedVar default h (.head _) fun _ _ => rfl
  · exact copies_stored .fixedVarTolerance default h (.head _) fun _ _ => rfl
  · exact copies_stored .fixedVarPerturb default h (.head _) fun _ _ => rfl
  · exact copies_stored .boundRelaxFactor default h (.head _) fun _ _ => rfl
  · exact copies_stored .deltaWInit default h (.head _) fun _ _ => rfl
  · exact copies_stored .deltaWMax default h (.head _) fun _ _ => rfl
  · exact copies_stored .deltaC default h (.head _) fun _ _ => rfl
  · exact copies_stored .verbosity default h (.head _) fun _ _ => rfl
  · exact copies_stored .verbosity default h (.tail _ (.head _)) fun _ _ => rfl
  · cases h

theorem setOption_setsOne (name : String) (value : OptionValue α) :
    SetsOne Parameter.replace (name ∈ Parameter.names ·)
      (called fun s : InteriorSettings α => s.setOption name value) :=
  setsOne_of_copies fun _ => assignment_copies

def numbers {α : Type} (s : InteriorSettings α) : List α :=
  [s.tolerance, s.relTolerance, s.acceptableTolerance, s.mu0, s.kappaMu, s.thetaMu, s.tauMin,
   s.kappaEps, s.kappa1, s.kappa2, s.pSmax, s.gammaTheta, s.gammaPhi, s.sTheta, s.sPhi, s.delta,
   s.etaPhi, s.gammaAlpha, s.kappaSigma, s.multiplierInit, s.multiplierInitMax,
   s.fixedVarTolerance, s.fixedVarPerturb, s.boundRelaxFactor, s.deltaWInit, s.deltaWMax,
   s.deltaC]

/-- The value of constant starting multipliers, which has no range, is a number. -/
def DefinedStart (s : InteriorSettings Extended) : Prop := isUndefined s.multiplierInit = false

theorem assignment_definedStart {s : InteriorSettings Extended} {value : OptionValue Extended}
    {change : InteriorSettings Extended → InteriorSettings Extended}
    (h : assignment name value = .ok change) (defined : s.DefinedStart) :
    (change s).DefinedStart := by
  unfold assignment at h
  split at h
  all_goals try exact assigned h (fun _ => trivial) fun _ _ => defined
  · exact assigned h number_defined fun _ ok => ok
  · cases h

open Extended in
/-- A number in a range is defined, whatever the range. -/
theorem InRange.defined {s : InteriorSettings Extended} (inRange : s.InRange)
    (definedStart : s.DefinedStart) : ∀ a ∈ s.numbers, isUndefined a = false := by
  simp only [numbers, List.forall_mem_cons, List.not_mem_nil, false_implies, implies_true, and_true]
  exact ⟨defined_of_lt inRange.tolerance, defined_of_le inRange.relTolerance,
    defined_of_lt inRange.acceptableTolerance, defined_of_lt inRange.mu0,
    defined_of_lt inRange.kappaMu.1, defined_of_le inRange.thetaMu.1,
    defined_of_lt inRange.tauMin.1, defined_of_lt inRange.kappaEps, defined_of_lt inRange.kappa1,
    defined_of_le inRange.kappa2.1, defined_of_lt inRange.pSmax,
    defined_of_lt inRange.gammaTheta.1, defined_of_lt inRange.gammaPhi.1,
    defined_of_lt inRange.sTheta, defined_of_lt inRange.sPhi, defined_of_lt inRange.delta,
    defined_of_le inRange.etaPhi.1, defined_of_lt inRange.gammaAlpha.1,
    defined_of_le inRange.kappaSigma, definedStart, defined_of_le inRange.multiplierInitMax,
    defined_of_le inRange.fixedVarTolerance, defined_of_lt inRange.fixedVarPerturb,
    defined_of_le inRange.boundRelaxFactor, defined_of_lt inRange.deltaWInit,
    defined_of_lt inRange.deltaWMax, defined_of_le inRange.deltaC⟩

/-- Whatever the arithmetic, calls that start in range stay there. -/
theorem reached_inRange (start : (default : InteriorSettings α).InRange)
    (calls : List (String × OptionValue α)) :
    (reached InteriorSettings.setOption default calls).InRange :=
  reached_keeps assignment_inRange start calls

theorem reached_defined (calls : List (String × OptionValue Extended)) :
    ∀ a ∈ (reached InteriorSettings.setOption default calls).numbers, isUndefined a = false := by
  have start : (default : InteriorSettings Extended).DefinedStart := Extended.isUndefined_finite 1
  exact (reached_inRange default_inRange_extended calls).defined
    (reached_keeps assignment_definedStart start calls)

end InteriorSettings

namespace PenaltySettings

open OptionValue

/-- The parameters of the augmented Lagrangian method, those of its subproblem solves included. -/
inductive Parameter where
  | tolerance | relTolerance | acceptableTolerance | acceptableIterations | maxIter | rho0
  | rhoMax | rhoIncrease | growth | lambda0 | stopOnInnerFailure | verbosity
  | inner (p : InteriorSettings.Parameter)
  deriving DecidableEq

namespace Parameter

def names : Parameter → List String
  | tolerance => ["tolerance"]
  | relTolerance => ["rel_tolerance"]
  | acceptableTolerance => ["acceptable_tolerance"]
  | acceptableIterations => ["acceptable_iterations"]
  | maxIter => ["max_iter"]
  | rho0 => ["rho0"]
  | rhoMax => ["rho_max"]
  | rhoIncrease => ["rho_increase"]
  | growth => ["penalty_update"]
  | lambda0 => ["lambda0"]
  | stopOnInnerFailure => ["stop_on_inner_failure"]
  | verbosity => ["verbosity_level", "verbosity"]
  | inner p => p.names.map ("inner." ++ ·)

def all : List Parameter :=
  [.tolerance, .relTolerance, .acceptableTolerance, .acceptableIterations, .maxIter, .rho0,
   .rhoMax, .rhoIncrease, .growth, .lambda0, .stopOnInnerFailure, .verbosity] ++
    InteriorSettings.Parameter.all.map inner

theorem mem_all (p : Parameter) : p ∈ all := by
  cases p with
  | inner p => exact List.mem_append_right _ (List.mem_map_of_mem p.mem_all)
  | _ => decide

/-- No name stands for two parameters. -/
theorem names_unique {p q : Parameter} {name : String} (left : name ∈ p.names)
    (right : name ∈ q.names) : p = q := by
  have listed : ∀ p ∈ all, ∀ q ∈ all, ∀ name ∈ p.names, name ∈ q.names → p = q := by
    decide +kernel
  exact listed p (mem_all p) q (mem_all q) name left right

def replace {α : Type} (p : Parameter) (source s : PenaltySettings α) : PenaltySettings α :=
  match p with
  | tolerance => { s with tolerance := source.tolerance }
  | relTolerance => { s with relTolerance := source.relTolerance }
  | acceptableTolerance => { s with acceptableTolerance := source.acceptableTolerance }
  | acceptableIterations => { s with acceptableIterations := source.acceptableIterations }
  | maxIter => { s with maxIter := source.maxIter }
  | rho0 => { s with rho0 := source.rho0 }
  | rhoMax => { s with rhoMax := source.rhoMax }
  | rhoIncrease => { s with rhoIncrease := source.rhoIncrease }
  | growth => { s with growth := source.growth }
  | lambda0 => { s with lambda0 := source.lambda0 }
  | stopOnInnerFailure => { s with stopOnInnerFailure := source.stopOnInnerFailure }
  | verbosity => { s with verbosity := source.verbosity }
  | inner p => { s with inner := p.replace source.inner s.inner }

end Parameter

variable {α : Type} [Scalar α] {name : String} {value : OptionValue α}
  {change : PenaltySettings α → PenaltySettings α}

theorem outerAssignment_copies (h : outerAssignment name value = .ok change) :
    Copies Parameter.replace (name ∈ Parameter.names ·) change := by
  unfold outerAssignment at h
  split at h
  · exact copies_stored .tolerance default h (.head _) fun _ _ => rfl
  · exact copies_stored .relTolerance default h (.head _) fun _ _ => rfl
  · exact copies_stored .acceptableTolerance default h (.head _) fun _ _ => rfl
  · exact copies_stored .acceptableIterations default h (.head _) fun _ _ => rfl
  · exact copies_stored .maxIter default h (.head _) fun _ _ => rfl
  · exact copies_stored .rho0 default h (.head _) fun _ _ => rfl
  · exact copies_stored .rhoMax default h (.head _) fun _ _ => rfl
  · exact copies_stored .rhoIncrease default h (.head _) fun _ _ => rfl
  · exact copies_stored .growth default h (.head _) fun _ _ => rfl
  · exact copies_stored .lambda0 default h (.head _) fun _ _ => rfl
  · exact copies_stored .stopOnInnerFailure default h (.head _) fun _ _ => rfl
  · exact copies_stored .verbosity default h (.head _) fun _ _ => rfl
  · exact copies_stored .verbosity default h (.tail _ (.head _)) fun _ _ => rfl
  · cases h

/-- An option either is one of the outer loop or forwards the rest of its name. -/
theorem assignment_cases (h : assignment name value = .ok change) :
    outerAssignment name value = .ok change ∨ ∃ rest inner, name = "inner." ++ rest ∧
      InteriorSettings.assignment rest value = .ok inner ∧
      change = fun s => { s with inner := inner s.inner } := by
  unfold assignment at h
  split at h
  · rename_i rest leads
    cases forwarded : InteriorSettings.assignment rest value with
    | error _ =>
      rw [forwarded] at h
      cases h
    | ok inner =>
      rw [forwarded] at h
      cases h
      exact .inr ⟨rest, inner, eq_append_of_stripLead? leads, forwarded, rfl⟩
  · exact .inl h

theorem assignment_copies (h : assignment name value = .ok change) :
    Copies Parameter.replace (name ∈ Parameter.names ·) change := by
  obtain outer | ⟨rest, inner, rfl, forwarded, rfl⟩ := assignment_cases h
  · exact outerAssignment_copies outer
  · obtain ⟨p, source, goesBy, copied⟩ := InteriorSettings.assignment_copies forwarded
    exact ⟨.inner p, { default with inner := source }, List.mem_map_of_mem goesBy, fun s =>
      congrArg ({ s with inner := · }) (copied s.inner)⟩

theorem setOption_setsOne (name : String) (value : OptionValue α) :
    SetsOne Parameter.replace (name ∈ Parameter.names ·)
      (called fun s : PenaltySettings α => s.setOption name value) :=
  setsOne_of_copies fun _ => assignment_copies

/-- A forwarded option answers as it does on the inner settings and changes nothing else. -/
theorem setOption_forwards (rest : String) (value : OptionValue α) (s : PenaltySettings α) :
    called (fun s => s.setOption ("inner." ++ rest) value) s =
      (called (fun s => s.setOption rest value) s.inner).map id fun inner =>
        { s with inner := inner } := by
  unfold setOption assignment InteriorSettings.setOption
  rw [stripLead?_append]
  cases h : InteriorSettings.assignment rest value with
  | error _ => simp [called, h, Except.map]
  | ok change => simp [called, h, Except.map]

structure InRange {α : Type} [Scalar α] (s : PenaltySettings α) : Prop where
  tolerance : 0 < s.tolerance
  relTolerance : 0 ≤ s.relTolerance
  acceptableTolerance : 0 < s.acceptableTolerance
  rho0 : 0 < s.rho0
  rhoMax : 0 < s.rhoMax
  rhoIncrease : 1 ≤ s.rhoIncrease
  inner : s.inner.InRange

theorem default_inRange_extended : (default : PenaltySettings Extended).InRange := by
  have inner := InteriorSettings.default_inRange_extended
  constructor
  case inner => exact { inner with }
  all_goals
    simp only [default, Extended.zero_eq, Extended.one_eq, Extended.ofScientific_eq,
      Extended.finite_lt, Extended.finite_le]
    norm_num

theorem outerAssignment_inRange {s : PenaltySettings α}
    (h : outerAssignment name value = .ok change) (inRange : s.InRange) : (change s).InRange := by
  unfold outerAssignment at h
  split at h
  -- counts, keywords and the starting multiplier have no range
  all_goals try exact assigned h (fun _ => trivial) fun _ _ => { inRange with }
  · exact assigned h positive_ok fun _ ok => { inRange with tolerance := ok }
  · exact assigned h nonNegative_ok fun _ ok => { inRange with relTolerance := ok }
  · exact assigned h positive_ok fun _ ok => { inRange with acceptableTolerance := ok }
  · exact assigned h positive_ok fun _ ok => { inRange with rho0 := ok }
  · exact assigned h positive_ok fun _ ok => { inRange with rhoMax := ok }
  · exact assigned h atLeast_ok fun _ ok => { inRange with rhoIncrease := ok }
  · cases h

/-- An accepted option keeps every parameter in its range. -/
theorem assignment_inRange {s : PenaltySettings α} (h : assignment name value = .ok change)
    (inRange : s.InRange) : (change s).InRange := by
  obtain outer | ⟨rest, inner, -, forwarded, rfl⟩ := assignment_cases h
  · exact outerAssignment_inRange outer inRange
  · exact { inRange with inner := InteriorSettings.assignment_inRange forwarded inRange.inner }

theorem reached_inRange (start : (default : PenaltySettings α).InRange)
    (calls : List (String × OptionValue α)) :
    (reached PenaltySettings.setOption default calls).InRange :=
  reached_keeps assignment_inRange start calls

def numbers {α : Type} (s : PenaltySettings α) : List α :=
  [s.tolerance, s.relTolerance, s.acceptableTolerance, s.rho0, s.rhoMax, s.rhoIncrease,
    s.lambda0] ++ s.inner.numbers

/-- The two parameters without a range, starting values of multipliers, are numbers. -/
def DefinedStart (s : PenaltySettings Extended) : Prop :=
  isUndefined s.lambda0 = false ∧ s.inner.DefinedStart

section Numbers

variable {s : PenaltySettings Extended} {value : OptionValue Extended}
  {change : PenaltySettings Extended → PenaltySettings Extended}

theorem outerAssignment_definedStart (h : outerAssignment name value = .ok change)
    (defined : s.DefinedStart) : (change s).DefinedStart := by
  unfold outerAssignment at h
  split at h
  all_goals try exact assigned h (fun _ => trivial) fun _ _ => defined
  · exact assigned h number_defined fun _ ok => ⟨ok, defined.2⟩
  · cases h

theorem assignment_definedStart (h : assignment name value = .ok change)
    (defined : s.DefinedStart) : (change s).DefinedStart := by
  obtain outer | ⟨rest, inner, -, forwarded, rfl⟩ := assignment_cases h
  · exact outerAssignment_definedStart outer defined
  · exact ⟨defined.1, InteriorSettings.assignment_definedStart forwarded defined.2⟩

open Extended in
theorem InRange.defined (inRange : s.InRange) (definedStart : s.DefinedStart) :
    ∀ a ∈ s.numbers, isUndefined a = false := by
  have inner := inRange.inner.defined definedStart.2
  simp only [numbers, List.cons_append, List.nil_append, List.forall_mem_cons]
  exact ⟨defined_of_lt inRange.tolerance, defined_of_le inRange.relTolerance,
    defined_of_lt inRange.acceptableTolerance, defined_of_lt inRange.rho0,
    defined_of_lt inRange.rhoMax, defined_of_le inRange.rhoIncrease, definedStart.1, inner⟩

theorem reached_defined (calls : List (String × OptionValue Extended)) :
    ∀ a ∈ (reached PenaltySettings.setOption default calls).numbers, isUndefined a = false := by
  have start : (default : PenaltySettings Extended).DefinedStart :=
    ⟨Extended.isUndefined_finite 1, Extended.isUndefined_finite 1⟩
  exact (reached_inRange default_inRange_extended calls).defined
    (reached_keeps assignment_definedStart start calls)

end Numbers

end PenaltySettings

/-- A call under any name with any value does one thing to all settings: it is refused and leaves
them as they are, or it stores a value in the one parameter that goes by the name. A name behind
`inner.` acts on the inner settings alone. After any calls every numeric parameter is a number in
its range. -/
theorem options_set_one_parameter :
    (∀ (α : Type) [Scalar α] (name : String) (value : OptionValue α),
      SetsOne InteriorSettings.Parameter.replace (name ∈ InteriorSettings.Parameter.names ·)
        (called fun s : InteriorSettings α => s.setOption name value) ∧
      SetsOne PenaltySettings.Parameter.replace (name ∈ PenaltySettings.Parameter.names ·)
        (called fun s : PenaltySettings α => s.setOption name value)) ∧
    (∀ (name : String) (p q : InteriorSettings.Parameter),
      name ∈ p.names → name ∈ q.names → p = q) ∧
    (∀ (name : String) (p q : PenaltySettings.Parameter),
      name ∈ p.names → name ∈ q.names → p = q) ∧
    (∀ (α : Type) [Scalar α] (rest : String) (value : OptionValue α) (s : PenaltySettings α),
      called (fun s => s.setOption ("inner." ++ rest) value) s =
        (called (fun s => s.setOption rest value) s.inner).map id fun inner =>
          { s with inner := inner }) ∧
    (∀ calls : List (String × OptionValue Extended),
      (reached InteriorSettings.setOption InteriorSettings.default calls).InRange ∧
      ∀ a ∈ (reached InteriorSettings.setOption InteriorSettings.default calls).numbers,
        isUndefined a = false) ∧
    ∀ calls : List (String × OptionValue Extended),
      (reached PenaltySettings.setOption PenaltySettings.default calls).InRange ∧
      ∀ a ∈ (reached PenaltySettings.setOption PenaltySettings.default calls).numbers,
        isUndefined a = false :=
  ⟨fun _ _ name value => ⟨InteriorSettings.setOption_setsOne name value,
      PenaltySettings.setOption_setsOne name value⟩,
    fun _ _ _ => InteriorSettings.Parameter.names_unique,
    fun _ _ _ => PenaltySettings.Parameter.names_unique,
    fun _ _ => PenaltySettings.setOption_forwards,
    fun calls => ⟨InteriorSettings.reached_inRange InteriorSettings.default_inRange_extended calls,
      InteriorSettings.reached_defined calls⟩,
    fun calls => ⟨PenaltySettings.reached_inRange PenaltySettings.default_inRange_extended calls,
      PenaltySettings.reached_defined calls⟩⟩

end SmoothOpt
