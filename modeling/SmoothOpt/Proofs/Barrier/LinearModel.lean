import SmoothOpt.Proofs.Barrier.Backtracking
import SmoothOpt.Proofs.Settings.Range

/-!
The least step length of a line search against the first-order model of its trials.

A step of length `alpha` along the direction changes the violation to `(1 - alpha) theta` and the
barrier objective to `phi + alpha slope`, up to higher order. The least length is a fraction of the
lengths at which this model would meet each of the tests. So what is shorter fails them all, and a
search that stops there has nothing left to try.
-/
namespace SmoothOpt

open Scalar

/-- Violation and objective after a step, to first order. -/
noncomputable def Measures.linearTrial (m : Measures ℝ) (alpha slope : ℝ) : Measures ℝ :=
  ⟨(1 - alpha) * m.theta, m.phi + alpha * slope⟩

namespace LineSearch

variable {l : LineSearch ℝ} {theta slope alpha : ℝ}

/-- A step shorter than the least length is below each of the lengths that this is the least of. -/
theorem lt_of_lt_alphaMin (fraction : 0 < l.gammaAlpha ∧ l.gammaAlpha < 1) (positive : 0 < alpha)
    (short : alpha < l.alphaMin theta slope) :
    alpha < l.gammaTheta ∧ (slope < 0 → alpha < l.gammaPhi * theta / -slope ∧
      (theta ≤ l.thetaMin → alpha < l.delta * theta ^ l.sTheta / (-slope) ^ l.sPhi)) := by
  have below {base : ℝ} (short : alpha < l.gammaAlpha * base) : alpha < base := by
    have base_pos := pos_of_mul_pos_right (positive.trans short) fraction.1.le
    exact short.trans (mul_lt_of_lt_one_left base_pos fraction.2)
  have below_base := below short
  split at below_base
  · rename_i downhill
    split at below_base
    · rw [minNum_real, minNum_real, lt_min_iff, lt_min_iff] at below_base
      exact ⟨below_base.1.1, fun _ => ⟨below_base.1.2, fun _ => below_base.2⟩⟩
    · rename_i far
      rw [minNum_real, lt_min_iff] at below_base
      exact ⟨below_base.1, fun _ => ⟨below_base.2, fun near => absurd near far⟩⟩
  · rename_i uphill
    exact ⟨below_base, fun downhill => absurd downhill uphill⟩

/-- A nearly feasible point does not ask a step this short for a decrease of the objective. -/
theorem not_switching_of_lt_alphaMin (fraction : 0 < l.gammaAlpha ∧ l.gammaAlpha < 1)
    (positive : 0 < alpha) (short : alpha < l.alphaMin theta slope) :
    ¬(theta ≤ l.thetaMin ∧ l.switching alpha theta slope = true) := by
  rintro ⟨near, switches⟩
  simp only [switching, pow_real, Bool.and_eq_true, decide_eq_true_eq] at switches
  obtain ⟨downhill, promises⟩ := switches
  have worth := ((lt_of_lt_alphaMin fraction positive short).2 downhill).2 near
  rw [lt_div_iff₀ (Real.rpow_pos_of_pos (neg_pos.mpr downhill) _)] at worth
  exact lt_asymm worth promises

/-- To first order, a step this short reduces neither the violation nor the objective enough. -/
theorem linearTrial_insufficient {m : Measures ℝ} (infeasible : 0 < m.theta)
    (gammaPhi : 0 < l.gammaPhi) (fraction : 0 < l.gammaAlpha ∧ l.gammaAlpha < 1)
    (positive : 0 < alpha) (short : alpha < l.alphaMin m.theta slope) :
    (1 - l.gammaTheta) * m.theta < (m.linearTrial alpha slope).theta ∧
      m.phi - l.gammaPhi * m.theta < (m.linearTrial alpha slope).phi := by
  have below := lt_of_lt_alphaMin fraction positive short
  constructor
  · exact mul_lt_mul_of_pos_right (sub_lt_sub_left below.1 1) infeasible
  · have little : -(l.gammaPhi * m.theta) < alpha * slope := by
      rcases lt_or_ge slope 0 with downhill | uphill
      · have decrease := (below.2 downhill).1
        rw [lt_div_iff₀ (neg_pos.mpr downhill)] at decrease
        linarith
      · have rise := mul_nonneg positive.le uphill
        have worth := mul_pos gammaPhi infeasible
        linarith
    simp only [Measures.linearTrial]
    linarith

/-- The first-order model of a step shorter than the least length is rejected. -/
theorem accept_linearTrial_of_lt_alphaMin {m : Measures ℝ} {filter : Filter ℝ}
    (infeasible : 0 < m.theta) (gammaPhi : 0 < l.gammaPhi)
    (fraction : 0 < l.gammaAlpha ∧ l.gammaAlpha < 1) (positive : 0 < alpha)
    (short : alpha < l.alphaMin m.theta slope) :
    l.accept filter m (m.linearTrial alpha slope) alpha slope = none := by
  rw [Option.eq_none_iff_forall_ne_some]
  intro kind accepted
  obtain ⟨-, -, -, ⟨-, switches, -⟩ | ⟨-, -, decrease⟩⟩ := accept_eq_some_iff.mp accepted
  · refine not_switching_of_lt_alphaMin fraction positive short ⟨switches.1, ?_⟩
    simpa [switching] using switches.2
  · have insufficient := linearTrial_insufficient infeasible gammaPhi fraction positive short
    rcases decrease with violation | objective
    · exact not_le_of_gt insufficient.1 violation
    · exact not_le_of_gt insufficient.2 objective

/-- Below its least step length, a search with parameters in range has no use for another trial:
the Armijo test is not due there and the first-order model of the trial is rejected, whatever the
filter holds. A search that fails has therefore met a failing trial, spent its budget, or come to a
step length at which the model is rejected too. -/
theorem short_steps_fail_linear_model {settings : InteriorSettings ℝ} (inRange : settings.InRange)
    (theta0 : ℝ) :
    let l := ofSettings settings theta0
    (∀ (filter : Filter ℝ) (current : Measures ℝ) (alpha slope : ℝ), 0 < current.theta →
      0 < alpha → alpha < l.alphaMin current.theta slope →
      ¬(current.theta ≤ l.thetaMin ∧ l.switching alpha current.theta slope = true) ∧
        l.accept filter current (current.linearTrial alpha slope) alpha slope = none) ∧
    ∀ (τ : Type) (s : Search ℝ τ), s.rule = l → 0 < s.current.theta → 0 < s.alphaMax →
      ∀ t f t', s.run.outcome t = (.error f, t') →
        (∃ k u, (s.trial (s.length k)).outcome u = (.error f, t')) ∨
        ∃ alpha, f = .lineSearch alpha ∧
          (alpha = s.length (l.maxBacktracks + 1) ∧ s.Rejects t (l.maxBacktracks + 1) t' ∨
            l.accept s.filter s.current (s.current.linearTrial alpha s.slope) alpha s.slope
              = none) := by
  intro l
  have gammaPhi : 0 < l.gammaPhi := inRange.gammaPhi.1
  have fraction : 0 < l.gammaAlpha ∧ l.gammaAlpha < 1 := inRange.gammaAlpha
  refine ⟨fun filter current alpha slope infeasible positive short =>
    ⟨not_switching_of_lt_alphaMin fraction positive short,
      accept_linearTrial_of_lt_alphaMin infeasible gammaPhi fraction positive short⟩, ?_⟩
  intro τ s rule infeasible positive t f t' ran
  obtain ⟨k, u, within, rejects, -, ends⟩ := Search.outcome_run_iff.mp ran
  cases ends with
  | failed failed => exact .inl ⟨k, u, failed⟩
  | exhausted measured rejected last =>
    refine .inr ⟨_, rfl, ?_⟩
    rcases last with spent | short
    · rw [← rule, ← spent]
      exact .inl ⟨rfl, .another rejects measured rejected⟩
    · rw [Search.TooShort, rule] at short
      have length_pos : 0 < s.length (k + 1) := by
        rw [Search.length, halved_real]
        positivity
      exact .inr (accept_linearTrial_of_lt_alphaMin infeasible gammaPhi fraction length_pos short)

/-- A search whose trials all exceed the cap on the violation. -/
noncomputable def stalled : Search ℝ Unit where
  rule := ofSettings .default 1e4
  filter := ⟨[], 0, 0⟩
  alphaMax := 8e-10
  current := ⟨1, 0⟩
  slope := -1
  trial _ := pure ⟨1e9, 0⟩
  onReject _ u := u

theorem stalled_alphaMin : stalled.rule.alphaMin 1 (-1) = 5e-10 := by
  norm_num [alphaMin, stalled, ofSettings, InteriorSettings.default]

theorem stalled_run : stalled.run.outcome () = (.error (.lineSearch (stalled.length 1)), ()) := by
  have tooShort : stalled.TooShort 1 := by
    rw [Search.TooShort, Search.length, halved_real]
    change 8e-10 / 2 ^ 1 < stalled.rule.alphaMin 1 (-1)
    rw [stalled_alphaMin]
    norm_num
  have rejected : stalled.verdict 0 ⟨1e9, 0⟩ = none := by
    norm_num [Search.verdict, accept, stalled, ofSettings]
  exact Search.Course.outcome ⟨Nat.zero_le _, .nothing, by omega,
    .exhausted rfl rejected (.inr tooShort)⟩

/-- With the parameters of a solver that nothing was set of, at a violation of one and a slope of
minus one. -/
theorem stalled_fails_linear_model :
    (InteriorSettings.default : InteriorSettings ℝ).InRange ∧
      (4e-10 : ℝ) < stalled.rule.alphaMin 1 (-1) ∧
      stalled.rule.accept stalled.filter ⟨1, 0⟩ (Measures.linearTrial ⟨1, 0⟩ 4e-10 (-1)) 4e-10 (-1)
        = none ∧
      stalled.run.outcome () = (.error (.lineSearch (stalled.length 1)), ()) ∧
      stalled.rule.accept stalled.filter stalled.current
        (stalled.current.linearTrial (stalled.length 1) stalled.slope) (stalled.length 1)
        stalled.slope = none := by
  have short : (4e-10 : ℝ) < stalled.rule.alphaMin 1 (-1) := by
    rw [stalled_alphaMin]
    norm_num
  obtain ⟨rejected, searches⟩ :=
    short_steps_fail_linear_model InteriorSettings.default_inRange 1e4
  refine ⟨InteriorSettings.default_inRange, short,
    (rejected stalled.filter ⟨1, 0⟩ 4e-10 (-1) (by norm_num) (by norm_num) short).2,
    stalled_run, ?_⟩
  obtain ⟨k, u, failed⟩ | ⟨alpha, same, spent | ended⟩ := searches Unit stalled rfl
    (by norm_num [stalled]) (by norm_num [stalled]) () _ () stalled_run
  · cases failed
  · cases same
    have lengths := spent.1
    norm_num [Search.length, halved_real, stalled, ofSettings, InteriorSettings.default] at lengths
  · cases same
    exact ended

end LineSearch

end SmoothOpt
