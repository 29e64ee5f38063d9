import Mathlib
import SmoothOpt.Proofs.Barrier.Errors
import SmoothOpt.Proofs.Barrier.Positivity
import SmoothOpt.Proofs.Newton.Blocks
import SmoothOpt.Proofs.Problem.Ordering

/-!
The interior point method on a ray: minimize `-x` over `x ≥ 0`, with a gradient that fails beyond
a limit.

The problem has one variable, one present bound and no curvature, so an iteration can be followed
exactly. From the point `x` with bound multiplier `z` and barrier parameter one, the Newton
direction is `(x + 1) / z` in the variable and `-z - 1` in the multiplier. The line search accepts
the full step. The multiplier is halved by the fraction-to-boundary rule before it is clipped.
Each point is therefore a function of the last one, and `run_fails` follows a run for any limit: it
reports the points within the limit and fails at the first one beyond.
-/
namespace SmoothOpt

open Scalar Linear

namespace Barrier.Ray

abbrev line : Dims := ⟨1, 0, 0⟩

/-- Minimize `-x` over `x ≥ 0` from one; the gradient fails beyond `limit`. -/
noncomputable def problem (limit : ℝ) : Problem ℝ Unit line where
  variableBounds := pure (.good (single 0, single 1e20))
  inequalityBounds := pure (.good (noEntries, noEntries))
  start := pure (.good (single 1))
  objective x _ := pure (.good (-x.get ⟨0, Nat.one_pos⟩))
  gradient x _ := pure ⟨some (single (-1)), decide (x.get ⟨0, Nat.one_pos⟩ ≤ limit)⟩
  equalities _ _ := pure (.good noEntries)
  inequalities _ _ := pure (.good noEntries)
  equalityJacobian _ _ := pure (.good noEntries)
  inequalityJacobian _ _ := pure (.good noEntries)
  providesHessian := true
  hessian _ _ _ _ _ := pure (.good (single (single 0)))

/-- Parameters that clip the multipliers to `mu / s` exactly and leave the bound where it is. -/
noncomputable def settings (tolerance : ℝ) : InteriorSettings ℝ :=
  { (InteriorSettings.default : InteriorSettings ℝ) with
    tolerance := tolerance
    tauMin := 0.5
    kappaEps := 1
    etaPhi := 0
    kappaSigma := 1
    boundRelaxFactor := 0 }

theorem settings_inRange {tolerance : ℝ} (positive : 0 < tolerance) :
    (settings tolerance).InRange := by
  constructor <;> norm_num [settings, InteriorSettings.default]
  exact positive

noncomputable def bounds : Bounds ℝ line := .literal (single 0) (single 1e20) noEntries noEntries

theorem bounds_lower : bounds.x.lower.get 0 = ⟨0, true⟩ := by
  have earnest : isFiniteBound (0 : ℝ) = true := by
    norm_num [isFiniteBound]
  simp [bounds, Bounds.literal, Bound.of, earnest]

theorem bounds_upper : (bounds.x.upper.get 0).present = false := by
  have absent : isFiniteBound (1e20 : ℝ) = false := by
    norm_num [isFiniteBound]
  simp [bounds, Bounds.literal, Bound.of, absent]

noncomputable def setup (limit tolerance : ℝ) : Setup ℝ Unit line :=
  ⟨problem limit, settings tolerance, bounds⟩

@[simp] theorem setup_settings (limit tolerance : ℝ) :
    (setup limit tolerance).settings = settings tolerance := rfl

@[simp] theorem setup_bounds (limit tolerance : ℝ) : (setup limit tolerance).bounds = bounds := rfl

variable {limit tolerance x z : ℝ} {s : State ℝ Unit line}

theorem values_of_answers {e : Evaluation ℝ line} {v : Vector ℝ 1}
    (h : e.AnswersAt (problem limit) v) : e.f = -v.get 0 ∧ e.grad.get 0 = -1 := by
  refine ⟨h.f.eq_of_written rfl, ?_⟩
  rw [h.grad.eq_of_written rfl]
  rfl

theorem violation_zero (e : Evaluation ℝ line) (it : Iterate ℝ line) : violation e it = 0 :=
  violation_of_unconstrained e it

/-- The state stands at the point `x` with bound multiplier `z`, in the first barrier phase. -/
structure Placed (tolerance x z : ℝ) (s : State ℝ Unit line) : Prop where
  point : s.curr.x.point.get 0 = x
  slack : s.curr.x.slackLo.get 0 = x
  mult : s.curr.x.multLo.get 0 = z
  mu : s.mu = 1
  filter : s.filter.entries = []
  search : s.lineSearch = .ofSettings (settings tolerance) 0
  exact : s.curvature.isExact = true

/-- The state between two passes. -/
structure At (limit tolerance x z : ℝ) (s : State ℝ Unit line) : Prop
    extends Placed tolerance x z s where
  coherent : s.Coherent (setup limit tolerance)
  inside : ∃ start, s.Interior (setup limit tolerance) start

theorem lower_present : (bounds.x.lower.get 0).present = true := by
  rw [bounds_lower]

namespace At

theorem interior (h : At limit tolerance x z s) : s.curr.Interior bounds := by
  obtain ⟨start, inside⟩ := h.inside
  exact inside.curr

theorem slack_pos (h : At limit tolerance x z s) : 0 < x :=
  h.slack ▸ h.interior.x.slackLo.pos lower_present

theorem mult_pos (h : At limit tolerance x z s) : 0 < z :=
  h.mult ▸ h.interior.x.multLo.pos lower_present

theorem grad (h : At limit tolerance x z s) : s.eval.grad.get 0 = -1 :=
  (values_of_answers h.coherent.eval).2

/-- The data of the Newton system: no curvature, and the barrier terms of the one bound. -/
theorem newtonData (h : At limit tolerance x z s)
    (flat : s.curvature = .exact #v[#v[0]]) :
    (s.newtonData (setup limit tolerance)).hess.entry 0 0 = 0 ∧
      (s.newtonData (setup limit tolerance)).sigmaX.get 0 = z / x ∧
      (s.newtonData (setup limit tolerance)).rhsX.get 0 = 1 + 1 / x := by
  refine ⟨?_, ?_, ?_⟩
  · simp only [State.newtonData, flat]
    rfl
  · simp only [State.newtonData, Block.diagonal, Vector.get_ofFn]
    simp [setup, lower_present, bounds_upper, h.slack, h.mult]
  · simp only [State.newtonData, barrierGradients, Block.barrierPull, Block.pull, pulled,
      Vector.get_ofFn, Vector.get_map, Evaluation.lagrangianGradient,
      Dense.get_addTransposeProduct]
    simp [setup, lower_present, bounds_upper, h.slack, h.grad, h.mu, add_comm]

variable [solver : DenseSolver ℝ]

/-- The Newton system is solved without a shift. -/
theorem newton_solved (exact : EigenExact solver) (h : At limit tolerance x z s)
    (flat : s.curvature = .exact #v[#v[0]]) (r : Newton.Regularization ℝ)
    (st : Newton.ShiftMemory ℝ) :
    ∃ sol, (Newton.solve r st (s.newtonData (setup limit tolerance))).result = .ok sol ∧
      sol.deltaC = 0 ∧ sol.dx.get 0 = (x + 1) / z := by
  obtain ⟨hess, sigma, rhs⟩ := h.newtonData flat
  set data := s.newtonData (setup limit tolerance)
  have x_pos := h.slack_pos
  have z_pos := h.mult_pos
  have entry := congrFun (congrFun (data.matrix_eq_blocks 0 0) (.inl (.inl 0))) (.inl (.inl 0))
  have pivot : (data.matrix 0 0).entry 0 0 = z / x := by
    rw [← sigma]
    refine entry.trans ?_
    simp [Newton.Data.blocks, Newton.Data.primalBlock, hess]
  have fits : (Newton.factor (data.matrix 0 0)).inertia = Newton.targetInertia line := by
    refine Newton.factor_single exact ?_
    rw [pivot]
    positivity
  obtain ⟨sol, solved, shiftW, shiftC⟩ : ∃ sol, (Newton.solve r st data).result = .ok sol ∧
      sol.deltaW = 0 ∧ sol.deltaC = 0 := ⟨_, Newton.solve_of_inertia r st fits, rfl, rfl⟩
  have symmetric : data.hess.Symmetric := by
    intro i j
    rw [Subsingleton.elim i j]
  obtain ⟨rows, -⟩ := (Newton.solve_iff exact symmetric solved _ _).mpr ⟨rfl, rfl⟩
  have row := ((data.primalRows_iff _ _ _ _ _).mp rows).1 0
  simp only [Finset.univ_unique, Finset.sum_singleton, Finset.univ_eq_empty, Finset.sum_empty,
    Fin.default_eq_zero, hess, sigma, rhs, shiftW, zero_mul, zero_add, add_zero] at row
  refine ⟨sol, solved, shiftC, ?_⟩
  field_simp at row ⊢
  linarith

omit solver in
theorem of_kept {s' : State ℝ Unit line} (h : At limit tolerance x z s) (kept : s.Kept s')
    (exact : s'.curvature.isExact = true) : At limit tolerance x z s' := by
  have coherent := h.coherent.of_kept kept
  obtain ⟨start, inside⟩ := h.inside
  have inside' := inside.of_kept kept
  obtain ⟨w, k, m, t, rfl⟩ := kept
  exact ⟨⟨h.point, h.slack, h.mult, h.mu, h.filter, h.search, exact⟩, coherent, start, inside'⟩

omit solver in
/-- Refreshing the Hessian leaves the state where it is, with the flat Hessian of the problem. -/
theorem refreshed (h : At limit tolerance x z s) :
    ∃ s', (refreshCurvature (setup limit tolerance)).outcome s = (.ok (), s') ∧ s.Kept s' ∧
      s'.curvature = .exact #v[#v[0]] :=
  ⟨_, refreshCurvature_of_answer h.exact rfl (allFinite_real _), ⟨_, _, _, _, rfl⟩, rfl⟩

/-- The search direction, and a state that differs in nothing else. -/
theorem direction (exact : EigenExact solver) (h : At limit tolerance x z s) :
    ∃ dir s', (searchDirection (setup limit tolerance)).outcome s = (.ok dir, s') ∧
      At limit tolerance x z s' ∧ s'.curvature = .exact #v[#v[0]] ∧ s'.iter = s.iter ∧
      dir.x.point.get 0 = (x + 1) / z ∧ dir.x.multLo.get 0 = -z - 1 := by
  obtain ⟨s₁, refreshed, kept₁, flat⟩ := h.refreshed
  have h₁ := h.of_kept kept₁ (by rw [flat]; rfl)
  obtain ⟨sol, solved, -, dx⟩ := h₁.newton_solved exact flat (.ofSettings (settings tolerance))
    s₁.shifts
  obtain ⟨s', searched, same, -⟩ := searchDirection_of_solved refreshed solved
  have kept := (searchDirection_ok searched).1
  have x_pos := h.slack_pos
  have z_pos := h.mult_pos
  refine ⟨_, s', searched, h.of_kept kept (by rw [same, flat]; rfl), same.trans flat, ?_, dx, ?_⟩
  · obtain ⟨w, k, m, t, rfl⟩ := kept
    rfl
  · simp only [setup_bounds, Direction.ofNewton, Block.completeStep, Vector.get_ofFn, h₁.slack,
      h₁.mult, h₁.mu, dx]
    rw [if_pos lower_present]
    field_simp
    ring

end At

theorem funcs_outcome (limit : ℝ) (v : Vector ℝ 1) (e : Evaluation ℝ line) :
    ∃ e', (Evaluation.funcs (problem limit) v).outcome (e, ()) = (.ok (), (e', ())) := by
  simp only [Evaluation.funcs, Step.outcome_bind, Evaluation.outcome_ask, allFinite_real,
    isFinite_real]
  exact ⟨_, rfl⟩

theorem derivs_outcome (limit : ℝ) (v : Vector ℝ 1) (e : Evaluation ℝ line) :
    ∃ e', (Evaluation.derivs (problem limit) v).outcome (e, ()) =
      (if v.get 0 ≤ limit then .ok () else .error .gradient, (e', ())) := by
  have verdict : (((problem limit).gradient v false).run ()).1.ok = decide (v.get 0 ≤ limit) := rfl
  simp only [Evaluation.derivs, Step.outcome_bind, Evaluation.outcome_ask, allFinite_real, verdict,
    Bool.and_true]
  by_cases within : v.get 0 ≤ limit
  · simp only [within, decide_true, if_true]
    exact ⟨_, rfl⟩
  · simp only [within, decide_false, Bool.false_eq_true, if_false]
    exact ⟨_, rfl⟩

theorem barrierObjective_eq {e : Evaluation ℝ line} {it : Iterate ℝ line} {mu : ℝ} :
    barrierObjective e it bounds mu = e.f - mu * Real.log (it.x.slackLo.get 0) := by
  simp only [barrierObjective, Box.hasLower, Box.hasUpper, maskedLogSum_toList,
    Finset.univ_unique, Finset.sum_singleton, Finset.univ_eq_empty, Finset.sum_empty,
    Fin.default_eq_zero, lower_present, bounds_upper]
  simp

theorem barrierSlope_eq_single {e : Evaluation ℝ line} {it : Iterate ℝ line}
    {dir : Direction ℝ line} {mu : ℝ} :
    barrierSlope e it dir bounds mu =
      (e.grad.get 0 - mu / it.x.slackLo.get 0) * dir.x.point.get 0 := by
  rw [barrierSlope, Dense.foldl_products]
  simp only [Block.barrierPull, Block.pull, pulled, Vector.get_ofFn, Vector.get_map,
    Finset.univ_unique, Finset.sum_singleton, Finset.univ_eq_empty, Finset.sum_empty,
    Fin.default_eq_zero, lower_present, bounds_upper, if_true, Bool.false_eq_true, if_false,
    add_zero]

/-- Without violation and with an empty filter, a descent is accepted by the Armijo test. -/
theorem accept_of_descent {filter : Filter ℝ} {current trial : Measures ℝ} {slope : ℝ}
    (empty : filter.entries = []) (here : current.theta = 0) (there : trial.theta = 0)
    (descends : slope < 0) (lower : trial.phi ≤ current.phi) :
    (LineSearch.ofSettings (settings tolerance) 0).accept filter current trial 1 slope =
      some .armijo := by
  have undominated : filter.dominates trial.theta trial.phi = false := by
    rw [Filter.dominates, empty]
    rfl
  have promised : 0 < (-slope) ^ (2.3 : ℝ) := Real.rpow_pos_of_pos (neg_pos.mpr descends) _
  have switches : (LineSearch.ofSettings (settings tolerance) 0).switching 1 0 slope = true := by
    have nothing : (0 : ℝ) ^ (1.1 : ℝ) = 0 := Real.zero_rpow (by norm_num)
    simp only [LineSearch.switching, LineSearch.ofSettings, settings, InteriorSettings.default,
      pow_real, nothing, mul_zero, one_mul, descends, promised, decide_true, Bool.and_true]
  have capped : trial.theta ≤ (LineSearch.ofSettings (settings tolerance) 0).thetaMax := by
    rw [there]
    norm_num [LineSearch.ofSettings]
  have feasible : current.theta ≤ (LineSearch.ofSettings (settings tolerance) 0).thetaMin := by
    rw [here]
    norm_num [LineSearch.ofSettings]
  have sufficient : trial.phi ≤ current.phi
      + (LineSearch.ofSettings (settings tolerance) 0).etaPhi * slope := by
    simpa [LineSearch.ofSettings, settings] using lower
  rw [LineSearch.accept, undominated, here, switches]
  rw [here] at feasible
  simp [capped, feasible, sufficient]

namespace At

variable {dir : Direction ℝ line}

theorem tau (h : At limit tolerance x z s) : s.tau = 1 / 2 := by
  rw [h.coherent.tau, h.mu]
  norm_num [Setup.schedule, Schedule.tau, Schedule.ofSettings, setup, settings]

theorem primalStep (h : At limit tolerance x z s) (dx : dir.x.point.get 0 = (x + 1) / z) :
    s.curr.maxPrimalStep dir bounds s.tau = 1 := by
  have x_pos := h.slack_pos
  have z_pos := h.mult_pos
  have tau_nonneg : 0 ≤ s.tau := by
    rw [h.tau]
    norm_num
  apply le_antisymm
  · exact Iterate.maxPrimalStep_le_one h.interior.slacksPositive tau_nonneg dir
  · rw [Iterate.le_maxPrimalStep h.interior.slacksPositive tau_nonneg zero_le_one]
    refine ⟨le_rfl, ⟨?_, ?_⟩, ?_, ?_⟩ <;> intro i present
    · obtain rfl : i = 0 := Subsingleton.elim _ _
      simp only [Iterate.trial, Block.moved, Vector.get_ofFn, lower_present, if_true, h.slack,
        h.tau, dx]
      have moves : 0 < (x + 1) / z := by positivity
      linarith
    · obtain rfl : i = 0 := Subsingleton.elim _ _
      rw [bounds_upper] at present
      cases present
    · exact i.elim0
    · exact i.elim0

theorem dualStep (h : At limit tolerance x z s) (dz : dir.x.multLo.get 0 = -z - 1) :
    s.curr.maxDualStep dir bounds s.tau = z / (2 * (z + 1)) := by
  have z_pos := h.mult_pos
  have tau_nonneg : 0 ≤ s.tau := by
    rw [h.tau]
    norm_num
  apply le_antisymm
  · obtain ⟨-, ⟨kept, -⟩, -⟩ := (Iterate.le_maxDualStep h.interior.multipliersPositive tau_nonneg
      (Iterate.maxDualStep_nonneg h.interior.multipliersPositive tau_nonneg dir)).mp le_rfl
    have share := kept 0 lower_present
    simp only [Iterate.takeBoundStep, Block.multipliersMoved, movedWhere, Vector.get_ofFn,
      lower_present, if_true, h.mult, dz] at share
    rw [le_div_iff₀ (by positivity)]
    rw [h.tau] at share ⊢
    linarith
  · rw [Iterate.le_maxDualStep h.interior.multipliersPositive tau_nonneg (by positivity)]
    refine ⟨?_, ⟨?_, ?_⟩, ?_, ?_⟩
    · rw [div_le_one (by positivity)]
      linarith
    · intro i _
      obtain rfl : i = 0 := Subsingleton.elim _ _
      simp only [Iterate.takeBoundStep, Block.multipliersMoved, movedWhere, Vector.get_ofFn,
        lower_present, if_true, h.mult, h.tau, dz]
      have step : z / (2 * (z + 1)) * (-z - 1) = -(z / 2) := by
        field_simp
        ring
      linarith
    · intro i present
      obtain rfl : i = 0 := Subsingleton.elim _ _
      rw [bounds_upper] at present
      cases present
    · intro i
      exact i.elim0
    · intro i
      exact i.elim0

theorem slope_neg (h : At limit tolerance x z s) (dx : dir.x.point.get 0 = (x + 1) / z) :
    barrierSlope s.eval s.curr dir bounds s.mu < 0 := by
  have x_pos := h.slack_pos
  have z_pos := h.mult_pos
  rw [barrierSlope_eq_single, h.grad, h.slack, h.mu, dx]
  have barrier_pos : 0 < 1 / x := by positivity
  exact mul_neg_of_neg_of_pos (by linarith) (by positivity)

/-- The full step is accepted: it lowers the barrier objective, and there is nothing to violate. -/
theorem accepted (h : At limit tolerance x z s) (dx : dir.x.point.get 0 = (x + 1) / z) :
    ∃ kind e w, kind ≠ .filter ∧ (lineSearch (setup limit tolerance) dir
      (s.curr.maxPrimalStep dir bounds s.tau)).outcome s =
        (.ok (⟨1, kind, 0⟩, e), { s with world := w, trialEval := e }) := by
  rw [h.primalStep dx]
  obtain ⟨e, evaluated⟩ := funcs_outcome limit (s.curr.trial dir bounds 1).x.point s.trialEval
  have tried := measureTrial_of_values (c := setup limit tolerance) (s := s) (w := s.world)
    evaluated
  have value : e.f = -(s.curr.trial dir bounds 1).x.point.get 0 :=
    (measureTrial_ok tried).1.f.eq_of_written rfl
  have x_pos := h.slack_pos
  have z_pos := h.mult_pos
  have moves : 0 < (x + 1) / z := by positivity
  have slope := h.slope_neg dx
  have lower : (trialMeasures (setup limit tolerance) s dir 1 e).phi ≤
      (s.measures (setup limit tolerance)).phi := by
    simp only [trialMeasures, State.measures, setup_bounds, barrierObjective_eq, h.mu, h.slack,
      value, (values_of_answers h.coherent.eval).1, h.point]
    simp only [Iterate.trial, Block.moved, Vector.get_ofFn, lower_present, if_true, h.slack,
      h.point, dx]
    have grows := Real.log_le_log x_pos (by linarith : x ≤ x + 1 * ((x + 1) / z))
    linarith
  have passed : s.lineSearch.accept s.filter (s.measures (setup limit tolerance))
      (trialMeasures (setup limit tolerance) s dir 1 e) 1
      (barrierSlope s.eval s.curr dir bounds s.mu) = some .armijo := by
    rw [h.search]
    exact accept_of_descent h.filter (violation_zero _ _) (violation_zero _ _) slope lower
  refine ⟨_, e, _, ?_, lineSearch_of_first tried passed⟩
  split <;> decide

/-- The full step, with half the multiplier left. -/
theorem moveTo (h : At limit tolerance x z s) (dx : dir.x.point.get 0 = (x + 1) / z)
    (dz : dir.x.multLo.get 0 = -z - 1) {kind : StepKind} (unfiltered : kind ≠ .filter)
    (e : Evaluation ℝ line) (w : World ℝ Unit) :
    Placed tolerance (x + (x + 1) / z) (z / 2) (State.moveTo { s with world := w, trialEval := e }
      (setup limit tolerance) dir ⟨1, kind, 0⟩ e (s.curr.maxDualStep dir bounds s.tau)) := by
  have z_pos := h.mult_pos
  refine ⟨?_, ?_, ?_, h.mu, ?_, h.search, h.exact⟩
  · simp only [State.moveTo, Iterate.takeBoundStep, Block.multipliersMoved, Iterate.trial,
      Block.moved, Vector.get_ofFn, h.point, dx, one_mul]
  · simp only [State.moveTo, setup_bounds, Iterate.takeBoundStep, Block.multipliersMoved,
      Iterate.trial, Block.moved, Vector.get_ofFn, lower_present, if_true, h.slack, dx, one_mul]
  · rw [h.dualStep dz]
    simp only [State.moveTo, setup_bounds, Iterate.takeBoundStep, Block.multipliersMoved,
      Iterate.trial, Block.moved, movedWhere, Vector.get_ofFn, lower_present, if_true, h.mult, dz]
    field_simp
    ring
  · simp only [State.moveTo, unfiltered, if_false]
    exact h.filter

/-- An iteration takes the full step. The derivatives there decide whether it is completed. -/
theorem stepped [solver : DenseSolver ℝ] (exact : EigenExact solver)
    (h : At limit tolerance x z s) :
    ∃ dir acc alphaDual s', Placed tolerance (x + (x + 1) / z) (z / 2) s' ∧ s'.iter = s.iter ∧
      (advance (setup limit tolerance)).outcome s =
        if x + (x + 1) / z ≤ limit then
          (.ok (), s'.complete (setup limit tolerance) dir acc alphaDual)
        else (.error (.evaluation .gradient), s') := by
  obtain ⟨dir, s₁, searched, h₁, -, same_iter, dx, dz⟩ := h.direction exact
  obtain ⟨kind, e, w, unfiltered, found⟩ := h₁.accepted dx
  have placed := h₁.moveTo dx dz unfiltered e w
  generalize at_new : State.moveTo { s₁ with world := w, trialEval := e } (setup limit tolerance)
    dir ⟨1, kind, 0⟩ e (s₁.curr.maxDualStep dir bounds s₁.tau) = moved at placed
  obtain ⟨e', evaluated⟩ := derivs_outcome limit moved.curr.x.point moved.eval
  rw [placed.point] at evaluated
  have same_moved : moved.iter = s.iter := by
    rw [← at_new]
    exact same_iter
  refine ⟨dir, ⟨1, kind, 0⟩, s₁.curr.maxDualStep dir bounds s₁.tau,
    { moved with eval := e', world := { moved.world with problem := () } },
    ⟨placed.point, placed.slack, placed.mult, placed.mu, placed.filter, placed.search,
      placed.exact⟩, same_moved, ?_⟩
  by_cases within : x + (x + 1) / z ≤ limit
  · rw [if_pos within] at evaluated ⊢
    exact advance_of_accepted searched found rfl at_new.symm
      (Step.outcome_within_ok.mpr ⟨_, evaluated, rfl⟩)
  · rw [if_neg within] at evaluated ⊢
    exact advance_of_accepted searched found rfl at_new.symm
      (Step.outcome_within_error.mpr ⟨_, _, evaluated, rfl, rfl⟩)

variable [solver : DenseSolver ℝ]

/-- Before the limit the iteration is completed, and the multiplier is clipped to `1 / x`. -/
theorem completed (exact : EigenExact solver) (positive : 0 < tolerance)
    (h : At limit tolerance x z s) (within : x + (x + 1) / z ≤ limit) :
    ∃ s', (advance (setup limit tolerance)).outcome s = (.ok (), s') ∧
      At limit tolerance (x + (x + 1) / z) (1 / (x + (x + 1) / z)) s' ∧ s'.iter = s.iter + 1 := by
  obtain ⟨dir, acc, alphaDual, moved, placed, same_iter, outcome⟩ := h.stepped exact
  rw [if_pos within] at outcome
  have x_pos := h.slack_pos
  have z_pos := h.mult_pos
  have clipped_eq : clipped 1 1 (x + (x + 1) / z) (z / 2) = 1 / (x + (x + 1) / z) := by
    obtain ⟨lower, upper⟩ := clipped_mem (z := z / 2) one_pos (le_refl 1)
      (by positivity : 0 < x + (x + 1) / z)
    rw [one_mul] at lower upper
    exact le_antisymm upper lower
  obtain ⟨start, inside⟩ := h.inside
  have inside' := (inside.of_advance (settings_inRange positive) outcome).1
  have coherent := h.coherent.of_advance outcome
  obtain ⟨w, y, settled⟩ := complete_eq moved (setup limit tolerance) dir acc alphaDual
  rw [settled] at outcome inside' coherent
  refine ⟨_, outcome, ⟨⟨placed.point, placed.slack, ?_, placed.mu, placed.filter, placed.search,
    placed.exact⟩, coherent, start, inside'⟩, congrArg (· + 1) same_iter⟩
  simp only [State.completed, setup_bounds, Iterate.clip, Iterate.withConstraintMultipliers,
    Block.multipliersClipped, Vector.get_ofFn, lower_present, if_true, placed.slack, placed.mult,
    placed.mu]
  exact clipped_eq

/-- Beyond the limit the iteration fails after the step. -/
theorem failed (exact : EigenExact solver) (h : At limit tolerance x z s)
    (beyond : limit < x + (x + 1) / z) :
    ∃ s', (advance (setup limit tolerance)).outcome s =
        (.error (.evaluation .gradient), s') ∧
      Placed tolerance (x + (x + 1) / z) (z / 2) s' ∧ s'.iter = s.iter := by
  obtain ⟨dir, acc, alphaDual, moved, placed, same_iter, outcome⟩ := h.stepped exact
  rw [if_neg (not_le.mpr beyond)] at outcome
  exact ⟨moved, outcome, placed, same_iter⟩

end At

/-- The points of a run: one, three, fifteen. One more than each is the square of one more than the
last. -/
noncomputable def point : ℕ → ℝ
  | 0 => 1
  | k + 1 => point k + (point k + 1) * point k

theorem point_zero : point 0 = 1 := rfl

theorem one_le_point (k : ℕ) : 1 ≤ point k := by
  induction k with
  | zero => exact le_rfl
  | succ k ih =>
    have moves : 0 ≤ (point k + 1) * point k := by positivity
    rw [point]
    linarith

/-- The full step from a point with the multiplier clipped there ends at the next point. -/
theorem point_succ (k : ℕ) : point k + (point k + 1) / (1 / point k) = point (k + 1) := by
  rw [div_div_eq_mul_div, div_one, point]

theorem point_le_succ (k : ℕ) : point k ≤ point (k + 1) := by
  have one_le := one_le_point k
  have moves : 0 ≤ (point k + 1) / (1 / point k) := by positivity
  rw [← point_succ]
  linarith

theorem point_le_add (k n : ℕ) : point k ≤ point (k + n) :=
  monotone_nat_of_le_succ point_le_succ (Nat.le_add_right k n)

namespace At

/-- Both overall errors exceed one, as long as the multiplier is not large enough to be scaled. -/
theorem error_large (h : At limit tolerance x z s) (small : z ≤ 100) {bound : ℝ}
    (nonneg : 0 ≤ bound) (le_one : bound ≤ 1) :
    ¬ s.resid.nlpOverall ≤ bound ∧ ¬ s.resid.barOverall ≤ bound := by
  have z_pos := h.mult_pos
  have upper : s.curr.x.multHi.get 0 = 0 := h.interior.x.multHi.zero bounds_upper
  have total : s.curr.constraintTotal + s.curr.boundTotal = z := by
    simp only [Iterate.constraintTotal, Iterate.boundTotal, Finset.univ_unique,
      Finset.sum_singleton, Finset.univ_eq_empty, Finset.sum_empty, Fin.default_eq_zero, h.mult,
      upper, abs_zero, abs_of_pos z_pos]
    ring
  have cap : (settings tolerance).pSmax = 100 := by
    norm_num [settings, InteriorSettings.default]
  have cap_pos : 0 < (settings tolerance).pSmax := by
    rw [cap]
    norm_num
  have scale : s.curr.dualScale bounds (settings tolerance).pSmax = 1 := by
    rw [Iterate.dualScale, total]
    exact averageScale_eq_one cap_pos z_pos.le (small.trans cap.ge) _
  have far : ¬ s.curr.StationaryWithin s.eval
      (bound * s.curr.dualScale bounds (settings tolerance).pSmax) := by
    intro stationary
    have entry := stationary.x 0
    simp only [Finset.univ_eq_empty, Finset.sum_empty, h.grad, h.mult, upper, add_zero, scale,
      mul_one] at entry
    rw [abs_le] at entry
    linarith
  rw [h.coherent.resid]
  refine ⟨?_, ?_⟩
  · intro le
    exact far ((Residual.compute_nlpOverall_le_iff h.interior cap_pos nonneg).mp le).1
  · intro le
    exact far ((Residual.compute_barOverall_le_iff h.interior cap_pos nonneg).mp le).1

/-- A pass does not end the run and keeps the barrier parameter. -/
theorem pass (h : At limit tolerance x z s) (small : z ≤ 100) (positive : 0 < tolerance)
    (le_one : tolerance ≤ 1) (early : s.iter < 3000) :
    s.checked.1 = none ∧ s.reported (setup limit tolerance) = s.checked.2 ∧
      At limit tolerance x z s.checked.2 := by
  obtain ⟨start, inside⟩ := h.inside
  refine ⟨?_, ?_, ⟨⟨h.point, h.slack, h.mult, h.mu, h.filter, h.search, h.exact⟩,
    h.coherent.checked, start, inside.mu, inside.tau, inside.curr, inside.carried⟩⟩
  · refine h.coherent.undecided (h.error_large small positive.le le_one).1
      (h.error_large small ?_ ?_).1 ?_ early <;> norm_num [settings, InteriorSettings.default]
  · apply State.decreaseBarrier_of_unsolved
    have unsolved := (h.error_large small zero_le_one le_rfl).2
    simpa [Setup.schedule, Schedule.subproblemSolved, Schedule.ofSettings, setup, settings,
      State.checked, h.mu] using unsolved

/-- At each point a pass reports the state as it is, and goes on from there. -/
theorem pass_at_point (positive : 0 < tolerance) (le_one : tolerance ≤ 1) {k : ℕ}
    (h : At limit tolerance (point k) (1 / point k) s) (counted : s.iter = k) (early : k < 3000) :
    s.checked.1 = none ∧
      At limit tolerance (point k) (1 / point k) (s.reported (setup limit tolerance)) ∧
      (s.reported (setup limit tolerance)).iter = k := by
  have one_le := one_le_point k
  have inverse : 1 / point k ≤ 1 := (div_le_one (one_pos.trans_le one_le)).mpr one_le
  obtain ⟨undecided, reported, passed⟩ :=
    h.pass (inverse.trans (by norm_num)) positive le_one (counted ▸ early)
  rw [reported]
  exact ⟨undecided, passed, counted⟩

end At

theorem pushed_start (tolerance : ℝ) : (bounds.x.pushInside (settings tolerance).kappa1
    (settings tolerance).kappa2 #v[1]).get 0 = 1 := by
  simp only [Box.pushInside, Vector.get_ofFn, bounds_lower, pushInside, bounds_upper]
  norm_num [settings, InteriorSettings.default]

theorem succeedsAt {v : Vector ℝ 1} (within : v.get 0 ≤ limit) : (problem limit).SucceedsAt v where
  objective _ _ := rfl
  equalities _ _ := rfl
  inequalities _ _ := rfl
  gradient _ _ := decide_eq_true within
  equalityJacobian _ _ := rfl
  inequalityJacobian _ _ := rfl

variable [solver : DenseSolver ℝ]

/-- The start succeeds and stands at one with unit multiplier. -/
theorem started (positive : 0 < tolerance) (within : 1 ≤ limit)
    (exact : s.curvature.isExact = true) :
    ∃ first, (startingProcedure (setup limit tolerance)).outcome s = (.ok (), first) ∧
      At limit tolerance 1 1 first ∧ first.iter = s.iter := by
  have inside := pushed_start tolerance
  obtain ⟨first, ok⟩ := startingProcedure_succeeds (c := setup limit tolerance) (fun _ => rfl)
    (fun x0 given => by
      obtain rfl : x0 = #v[1] := Answered.eq_of_written rfl ⟨_, given⟩
      exact succeedsAt (inside.trans_le within)) s
  refine ⟨first, ok, ?_, ?_⟩
  · have coherent := State.Coherent.of_start ok
    have interior := State.Interior.of_start (settings_inRange positive) ok
    obtain ⟨x0, e, y, w, given, -, rfl⟩ := startingProcedure_ok ok
    obtain rfl : x0 = #v[1] := Answered.eq_of_written rfl ⟨_, given⟩
    refine ⟨⟨inside, ?_, ?_, rfl, rfl, ?_, exact⟩, coherent, _, interior⟩
    · simp only [State.started, startIterate, Iterate.withConstraintMultipliers,
        Iterate.withMultipliers, Iterate.withSlacks, Block.withMultipliers, Block.withSlacks,
        Vector.get_ofFn, setup_bounds, setup_settings, bounds_lower, if_true, maxNum_real, inside]
      norm_num [minSlack]
    · simp only [State.started, startIterate, Iterate.withConstraintMultipliers,
        Iterate.withMultipliers, Iterate.withSlacks, Block.withMultipliers, Block.withSlacks,
        Vector.get_map, setup_bounds, lower_present, if_true]
    · simp only [State.started, setup_settings, violation_zero]
  · obtain ⟨x0, e, y, w, -, -, rfl⟩ := startingProcedure_ok ok
    rfl

omit solver in
theorem bounds_of_raw (rule : Bounds.FixedRule ℝ) :
    Bounds.ofRaw rule #v[0] #v[1e20] #v[] #v[] = .ok bounds := by
  have absent : isFiniteBound (1e20 : ℝ) = false := by
    norm_num [isFiniteBound]
  have apart : rule.coincide 0 1e20 = false := Bounds.FixedRule.coincide_of_absent (.inr absent)
  have ordered : ¬ (1e20 : ℝ) < 0 := by norm_num
  exact Bounds.ofRaw_single (Bounds.variableFault_eq_none_iff.mpr
    ⟨isUndefined_real _, isUndefined_real _, ordered, fun _ => apart⟩) apart

noncomputable def engine (limit tolerance : ℝ) : Engine ℝ Unit line :=
  ⟨setup limit tolerance, .initial (settings tolerance) true ⟨(), []⟩⟩

omit solver in
theorem created (limit tolerance : ℝ) :
    (Engine.create (problem limit) (settings tolerance)).outcome ⟨(), []⟩ =
      (.ok (engine limit tolerance), ⟨(), []⟩) := by
  have queried : (Bounds.ofProblem (problem limit) (.ofSettings (settings tolerance))).run () =
      (.ok bounds, ()) := by
    rw [← bounds_of_raw (.ofSettings (settings tolerance))]
    rfl
  have unmoved : bounds.relax (settings tolerance).boundRelaxFactor = bounds := by
    simp [Bounds.relax, settings]
  exact Engine.create_unmoved rfl queried rfl unmoved rfl

/-- A run on the ray starts at one with unit multiplier, before its first pass. -/
theorem engine_started (positive : 0 < tolerance) (within : 1 ≤ limit) :
    ∃ first, (startingProcedure (setup limit tolerance)).outcome (engine limit tolerance).opened =
        (.ok (), first) ∧ At limit tolerance 1 1 first ∧ first.iter = 0 := by
  obtain ⟨w, opened⟩ := (engine limit tolerance).opened_eq
  rw [opened]
  exact started positive within rfl

/-- The state before the first pass of a run. -/
theorem engine_headed (positive : 0 < tolerance) (within : 1 ≤ limit) :
    ∃ first, (startingProcedure (setup limit tolerance)).outcome (engine limit tolerance).opened =
        (.ok (), first) ∧ At limit tolerance 1 1 (first.headed (setup limit tolerance)) ∧
      (first.headed (setup limit tolerance)).iter = 0 := by
  obtain ⟨first, started, h, counted⟩ := engine_started positive within
  obtain ⟨w, headed⟩ := first.headed_eq (setup limit tolerance)
  refine ⟨first, started, ?_, ?_⟩
  · rw [headed]
    exact h.of_kept ⟨_, _, _, _, rfl⟩ h.exact
  · rw [headed]
    exact counted

/-- From the `k`-th point, the `n` passes that stay within the limit are completed, each at the
next point, and the pass after them fails. -/
theorem At.course_fails (exact : EigenExact solver) (positive : 0 < tolerance)
    (le_one : tolerance ≤ 1) {n : ℕ} : ∀ {k left : ℕ} {s : State ℝ Unit line},
      At limit tolerance (point k) (1 / point k) s → s.iter = k → point (k + n) ≤ limit →
      limit < point (k + n + 1) → k + n < 3000 → n < left → ∃ reports last,
        Course (setup limit tolerance) Observer.silent left s () reports
          (.error (.evaluation .gradient)) last () ∧
        List.Forall₂ (fun j r => At limit tolerance (point j) (1 / point j) r)
          (List.range' k (n + 1)) reports ∧
        Placed tolerance (point (k + n + 1)) (1 / point (k + n) / 2) last ∧
        last.iter = k + n := by
  induction n with
  | zero =>
    intro k left s h counted within beyond early passes
    obtain ⟨left, rfl⟩ := Nat.exists_eq_succ_of_ne_zero passes.ne'
    obtain ⟨undecided, reported, counted'⟩ := h.pass_at_point positive le_one counted early
    obtain ⟨last, step, placed, kept⟩ := reported.failed exact (by rwa [point_succ])
    rw [point_succ] at placed
    exact ⟨_, last, .failed undecided rfl step, .cons reported .nil, placed, kept.trans counted'⟩
  | succ n ih =>
    intro k left s h counted within beyond early passes
    obtain ⟨left, rfl⟩ := Nat.exists_eq_succ_of_ne_zero (Nat.ne_zero_of_lt passes)
    obtain ⟨undecided, reported, counted'⟩ :=
      h.pass_at_point positive le_one counted (by omega)
    have shifted : k + (n + 1) = k + 1 + n := by omega
    rw [shifted] at within beyond early ⊢
    obtain ⟨s', step, next, advanced⟩ := reported.completed exact positive
      (by rw [point_succ]; exact (point_le_add _ _).trans within)
    rw [point_succ] at next
    obtain ⟨reports, last, course, points, placed, ended⟩ :=
      ih next (advanced.trans (congrArg (· + 1) counted')) within beyond early
        (Nat.lt_of_succ_lt_succ passes)
    exact ⟨_, last, .stepped undecided rfl step course, .cons reported points, placed, ended⟩

/-- A run reports the points within the limit, one after the other, and fails at the first one
beyond it. -/
theorem run_fails (exact : EigenExact solver) (positive : 0 < tolerance) (le_one : tolerance ≤ 1)
    {n : ℕ} (within : point n ≤ limit) (beyond : limit < point (n + 1)) (early : n < 3000) :
    ∃ first reports last,
      (engine limit tolerance).Follows Observer.silent () first reports
        (.error (.evaluation .gradient)) last ∧
      List.Forall₂ (fun j r => At limit tolerance (point j) (1 / point j) r)
        (List.range (n + 1)) reports ∧
      Placed tolerance (point (n + 1)) (1 / point n / 2) last ∧ last.iter = n := by
  obtain ⟨first, started, h, counted⟩ :=
    engine_headed positive ((one_le_point n).trans within)
  have at_point : At limit tolerance (point 0) (1 / point 0)
      (first.headed (setup limit tolerance)) := by
    rw [point_zero, div_one]
    exact h
  rw [← zero_add n] at within beyond early
  obtain ⟨reports, last, course, points, placed, ended⟩ :=
    at_point.course_fails exact positive le_one counted within beyond early
      (by omega : n < 3001)
  rw [← List.range_eq_range'] at points
  rw [zero_add] at placed ended
  exact ⟨first, reports, last, .of_course started course, points, placed, ended⟩

/-- With a gradient that fails beyond ten, a run reports the points one and three and fails at
fifteen. -/
theorem failing_run (exact : EigenExact solver) : ∃ first r₀ r₁ last,
    (engine 10 1e-8).Follows Observer.silent () first [r₀, r₁] (.error (.evaluation .gradient))
      last ∧
    At 10 1e-8 1 1 r₀ ∧ At 10 1e-8 3 (1 / 3) r₁ ∧ Placed 1e-8 15 (1 / 6) last ∧
      last.iter = 1 := by
  have three : point 1 = 3 := by norm_num [point]
  have fifteen : point 2 = 15 := by norm_num [point]
  obtain ⟨first, reports, last, follows, points, placed, ended⟩ :=
    run_fails exact (by norm_num : (0 : ℝ) < 1e-8) (by norm_num)
      (by norm_num [three] : point 1 ≤ 10) (by norm_num [fifteen]) (by omega)
  have indices : List.range (1 + 1) = [0, 1] := rfl
  rw [indices] at points
  obtain ⟨r₀, _, at₀, ⟨r₁, _, at₁, ⟨⟩, rfl⟩, rfl⟩ := by
    simpa only [List.forall₂_cons_left_iff, List.forall₂_nil_left_iff] using points
  rw [point_zero, div_one] at at₀
  rw [three] at at₁
  have sixth : (1 / 3 : ℝ) / 2 = 1 / 6 := by norm_num
  rw [fifteen, three, sixth] at placed
  exact ⟨first, r₀, r₁, last, follows, at₀, at₁, placed, ended⟩

end Barrier.Ray

/-- The observer that stops a run at its first report. -/
def Barrier.stopping : Observer ℝ Barrier.Ray.line Unit where
  onIteration _ _ := (true, ())
  onSolution _ _ := ()

end SmoothOpt
