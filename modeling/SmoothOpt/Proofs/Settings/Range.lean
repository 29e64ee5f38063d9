import SmoothOpt.Proofs.Scalar.Extended
import SmoothOpt.Settings.Option

/-!
The ranges of the interior point parameters.

These are the ranges every named option checks before it stores a value, so that no sequence of
accepted options leaves them.
-/
namespace SmoothOpt

open Scalar

namespace InteriorSettings

structure InRange {α : Type} [Scalar α] (s : InteriorSettings α) : Prop where
  tolerance : 0 < s.tolerance
  relTolerance : 0 ≤ s.relTolerance
  acceptableTolerance : 0 < s.acceptableTolerance
  mu0 : 0 < s.mu0
  kappaMu : 0 < s.kappaMu ∧ s.kappaMu < 1
  thetaMu : 1 ≤ s.thetaMu ∧ s.thetaMu ≤ 2.0
  tauMin : 0 < s.tauMin ∧ s.tauMin < 1
  kappaEps : 0 < s.kappaEps
  kappa1 : 0 < s.kappa1
  kappa2 : 0 ≤ s.kappa2 ∧ s.kappa2 ≤ 0.5
  pSmax : 0 < s.pSmax
  gammaTheta : 0 < s.gammaTheta ∧ s.gammaTheta < 1
  gammaPhi : 0 < s.gammaPhi ∧ s.gammaPhi < 1
  sTheta : 0 < s.sTheta
  sPhi : 0 < s.sPhi
  delta : 0 < s.delta
  etaPhi : 0 ≤ s.etaPhi ∧ s.etaPhi ≤ 0.5
  gammaAlpha : 0 < s.gammaAlpha ∧ s.gammaAlpha < 1
  kappaSigma : 1 ≤ s.kappaSigma
  multiplierInitMax : 0 ≤ s.multiplierInitMax
  fixedVarTolerance : 0 ≤ s.fixedVarTolerance
  fixedVarPerturb : 0 < s.fixedVarPerturb
  boundRelaxFactor : 0 ≤ s.boundRelaxFactor
  deltaWInit : 0 < s.deltaWInit
  deltaWMax : 0 < s.deltaWMax
  deltaC : 0 ≤ s.deltaC

/-- The parameters a solver runs with when nothing is set are in range. -/
theorem default_inRange : (default : InteriorSettings ℝ).InRange := by
  constructor <;> norm_num [default]

theorem default_inRange_extended : (default : InteriorSettings Extended).InRange := by
  constructor <;>
    simp only [default, Extended.zero_eq, Extended.one_eq, Extended.ofScientific_eq,
      Extended.finite_lt, Extended.finite_le] <;>
    norm_num

end InteriorSettings

namespace OptionValue

variable {α : Type} [Scalar α] {name : String} {value : OptionValue α} {v lo : α}

theorem bind_ok {ε β γ : Type} {x : Except ε β} {f : β → Except ε γ} {r : γ}
    (h : (x >>= f) = .ok r) : ∃ b, x = .ok b ∧ f b = .ok r := by
  cases x with
  | error _ => cases h
  | ok b => exact ⟨b, rfl, h⟩

/-- A checked value is stored: what holds after every value that passes the check holds. -/
theorem assigned {ε ρ β : Type} {x : Except ε β} {store : β → ρ → ρ} {change : ρ → ρ} {s : ρ}
    {P : ρ → Prop} {Q : β → Prop} (h : (do let v ← x; return store v) = .ok change)
    (checked : ∀ {v}, x = .ok v → Q v) (holds : ∀ v, Q v → P (store v s)) : P (change s) := by
  obtain ⟨v, offered, stored⟩ := bind_ok h
  cases stored
  exact holds v (checked offered)

theorem inRange_ok {hi : Option α} (h : value.inRange name lo hi = .ok v) :
    lo ≤ v ∧ ∀ bound ∈ hi, v ≤ bound := by
  obtain ⟨u, -, checked⟩ := bind_ok h
  split at checked
  · cases checked
    assumption
  · cases checked

theorem nonNegative_ok (h : value.nonNegative name = .ok v) : 0 ≤ v := (inRange_ok h).1

theorem atLeast_ok (h : value.inRange name lo none = .ok v) : lo ≤ v := (inRange_ok h).1

theorem between_ok {hi : α} (h : value.inRange name lo (some hi) = .ok v) : lo ≤ v ∧ v ≤ hi :=
  ⟨(inRange_ok h).1, (inRange_ok h).2 hi rfl⟩

theorem positive_ok (h : value.positive name = .ok v) : 0 < v := by
  obtain ⟨u, -, checked⟩ := bind_ok h
  split at checked
  · cases checked
    assumption
  · cases checked

theorem openUnit_ok (h : value.openUnit name = .ok v) : 0 < v ∧ v < 1 := by
  obtain ⟨u, -, checked⟩ := bind_ok h
  split at checked
  · cases checked
    assumption
  · cases checked

end OptionValue

namespace InteriorSettings

open OptionValue

variable {α : Type} [Scalar α] {s s' : InteriorSettings α}

/-- An accepted option keeps every parameter in its range. -/
theorem assignment_inRange {name : String} {value : OptionValue α}
    {change : InteriorSettings α → InteriorSettings α} (h : assignment name value = .ok change)
    (inRange : s.InRange) : (change s).InRange := by
  unfold assignment at h
  split at h
  -- counts, keywords and the value of constant starting multipliers have no range
  all_goals try exact assigned h (fun _ => trivial) fun _ _ => { inRange with }
  · exact assigned h positive_ok fun _ ok => { inRange with tolerance := ok }
  · exact assigned h nonNegative_ok fun _ ok => { inRange with relTolerance := ok }
  · exact assigned h positive_ok fun _ ok => { inRange with acceptableTolerance := ok }
  · exact assigned h positive_ok fun _ ok => { inRange with mu0 := ok }
  · exact assigned h openUnit_ok fun _ ok => { inRange with kappaMu := ok }
  · exact assigned h between_ok fun _ ok => { inRange with thetaMu := ok }
  · exact assigned h openUnit_ok fun _ ok => { inRange with tauMin := ok }
  · exact assigned h positive_ok fun _ ok => { inRange with kappaEps := ok }
  · exact assigned h positive_ok fun _ ok => { inRange with kappa1 := ok }
  · exact assigned h between_ok fun _ ok => { inRange with kappa2 := ok }
  · exact assigned h positive_ok fun _ ok => { inRange with pSmax := ok }
  · exact assigned h openUnit_ok fun _ ok => { inRange with gammaTheta := ok }
  · exact assigned h openUnit_ok fun _ ok => { inRange with gammaPhi := ok }
  · exact assigned h positive_ok fun _ ok => { inRange with sTheta := ok }
  · exact assigned h positive_ok fun _ ok => { inRange with sPhi := ok }
  · exact assigned h positive_ok fun _ ok => { inRange with delta := ok }
  · exact assigned h between_ok fun _ ok => { inRange with etaPhi := ok }
  · exact assigned h openUnit_ok fun _ ok => { inRange with gammaAlpha := ok }
  · exact assigned h atLeast_ok fun _ ok => { inRange with kappaSigma := ok }
  · exact assigned h atLeast_ok fun _ ok => { inRange with kappaSigma := ok }
  · exact assigned h nonNegative_ok fun _ ok => { inRange with multiplierInitMax := ok }
  · exact assigned h nonNegative_ok fun _ ok => { inRange with fixedVarTolerance := ok }
  · exact assigned h positive_ok fun _ ok => { inRange with fixedVarPerturb := ok }
  · exact assigned h nonNegative_ok fun _ ok => { inRange with boundRelaxFactor := ok }
  · exact assigned h positive_ok fun _ ok => { inRange with deltaWInit := ok }
  · exact assigned h positive_ok fun _ ok => { inRange with deltaWMax := ok }
  · exact assigned h nonNegative_ok fun _ ok => { inRange with deltaC := ok }
  · cases h

/-- The settings that accepted options can reach. -/
inductive Configured : InteriorSettings α → Prop
  | unset : Configured default
  | set {s s' : InteriorSettings α} (before : Configured s) {name : String} {value : OptionValue α}
      (accepted : s.setOption name value = .ok s') : Configured s'

theorem setOption_inRange {name : String} {value : OptionValue α}
    (accepted : s.setOption name value = .ok s') (inRange : s.InRange) : s'.InRange := by
  cases offered : assignment name value with
  | error _ => simp [setOption, offered, Except.map] at accepted
  | ok change =>
    simp only [setOption, offered, Except.map, Except.ok.injEq] at accepted
    rw [← accepted]
    exact assignment_inRange offered inRange

/-- Options lead from parameters in range to parameters in range. -/
theorem Configured.inRange (h : s.Configured) (start : (default : InteriorSettings α).InRange) :
    s.InRange := by
  induction h with
  | unset => exact start
  | set before accepted ih => exact setOption_inRange accepted ih

end InteriorSettings

end SmoothOpt
