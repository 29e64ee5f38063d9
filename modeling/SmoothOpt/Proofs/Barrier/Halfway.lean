import Mathlib
import SmoothOpt.Proofs.Barrier.Decrease
import SmoothOpt.Proofs.Barrier.Errors
import SmoothOpt.Proofs.Barrier.Projection
import SmoothOpt.Proofs.Newton.Blocks
import SmoothOpt.Proofs.Problem.Ordering

/-!
The interior point method on one variable with an equality and an inequality: minimize `x` subject
to `x = 0`, `x ≤ 100` and `x ≥ 0`, from a point that violates both constraints.

Everything of a first iteration happens here. The barrier problem counts as solved at the start, so
the first report comes with half the barrier parameter. The Newton system has as many equalities as
variables, and its direction leads back to zero. The boundary shortens it by half; the violation is
halved with it, which a filter step accepts. At the new point every error is within the tolerance,
half the start, so the run ends there.
-/
namespace SmoothOpt

open Scalar Linear Matrix

/-- An undominated trial that is no Armijo step is accepted where it improves the violation. -/
theorem LineSearch.accept_of_improved {l : LineSearch ℝ} {filter : Filter ℝ}
    {current trial : Measures ℝ} (alpha slope : ℝ) (empty : filter.entries = [])
    (capped : trial.theta ≤ l.thetaMax) (violated : l.thetaMin < current.theta)
    (improved : trial.theta ≤ (1 - l.gammaTheta) * current.theta) :
    l.accept filter current trial alpha slope = some .filter := by
  have undominated : filter.dominates trial.theta trial.phi = false := by
    rw [Filter.dominates, empty]
    rfl
  rw [accept, undominated]
  simp [capped, violated.not_ge, improved]

namespace Barrier.Halfway

abbrev trio : Dims := ⟨1, 1, 1⟩

/-- Minimize `x` subject to `x = 0`, `x ≤ 100` and `x ≥ 0` from `x`. -/
noncomputable def problem (x : ℝ) : Problem ℝ Unit trio where
  variableBounds := pure (.good (single 0, single 1e20))
  inequalityBounds := pure (.good (single (-1e20), single 1e2))
  start := pure (.good (single x))
  objective v _ := pure (.good (v.get ⟨0, Nat.one_pos⟩))
  gradient _ _ := pure (.good (single 1))
  equalities v _ := pure (.good (single (v.get ⟨0, Nat.one_pos⟩)))
  inequalities v _ := pure (.good (single (v.get ⟨0, Nat.one_pos⟩)))
  equalityJacobian _ _ := pure (.good (single (single 1)))
  inequalityJacobian _ _ := pure (.good (single (single 1)))
  providesHessian := true
  hessian _ _ _ _ _ := pure (.good (single (single 0)))

/-- Half the start is good enough. The barrier parameter is halved at most, the boundary may be
approached by half, and the multipliers are clipped to `mu / s` exactly. -/
noncomputable def settings (x : ℝ) : InteriorSettings ℝ :=
  { (InteriorSettings.default : InteriorSettings ℝ) with
    tolerance := x * 0.5
    mu0 := x * 0.1
    kappaMu := 0.5
    tauMin := 0.5
    kappaSigma := 1
    multiplierUpdate := .newton
    multiplierStart := .constant
    multiplierInit := 0
    boundRelaxFactor := 0 }

variable {x mu : ℝ}

theorem settings_inRange (positive : 0 < x) : (settings x).InRange := by
  constructor <;> norm_num [settings, InteriorSettings.default, positive]

/-- A lower bound on the variable and an upper bound on the inequality. -/
noncomputable def bounds : Bounds ℝ trio :=
  ⟨⟨single ⟨0, true⟩, single ⟨1e20, false⟩⟩, ⟨single ⟨-1e20, false⟩, single ⟨1e2, true⟩⟩, 0⟩

theorem lower_present : (bounds.x.lower.get 0).present = true := rfl

theorem upper_present : (bounds.s.upper.get 0).present = true := rfl

noncomputable def setup (x : ℝ) : Setup ℝ Unit trio := ⟨problem x, settings x, bounds⟩

@[simp] theorem setup_settings (x : ℝ) : (setup x).settings = settings x := rfl

@[simp] theorem setup_bounds (x : ℝ) : (setup x).bounds = bounds := rfl

noncomputable def engine (x : ℝ) : Engine ℝ Unit trio :=
  ⟨setup x, .initial (settings x) true ⟨(), []⟩⟩

theorem bounds_of_raw (rule : Bounds.FixedRule ℝ) :
    Bounds.ofRaw rule #v[0] #v[1e20] #v[-1e20] #v[1e2] = .ok bounds := by
  have zero : isFiniteBound (0 : ℝ) = true := by
    norm_num [isFiniteBound]
  have hundred : isFiniteBound (1e2 : ℝ) = true := by
    norm_num [isFiniteBound]
  have above : isFiniteBound (1e20 : ℝ) = false := by
    norm_num [isFiniteBound]
  have below : isFiniteBound (-1e20 : ℝ) = false := by
    norm_num [isFiniteBound]
  have apartX : rule.coincide 0 1e20 = false := Bounds.FixedRule.coincide_of_absent (.inr above)
  have apartS : rule.coincide (-1e20) 1e2 = false :=
    Bounds.FixedRule.coincide_of_absent (.inl below)
  rw [Bounds.ofRaw_of_apart]
  · simp [Bounds.literal, Bound.of, bounds, zero, hundred, above, below]
  · intro i
    obtain rfl := Fin.fin_one_eq_zero i
    have ordered : ¬ (1e20 : ℝ) < 0 := by norm_num
    exact Bounds.variableFault_eq_none_iff.mpr
      ⟨isUndefined_real _, isUndefined_real _, ordered, fun _ => apartX⟩
  · intro j
    obtain rfl := Fin.fin_one_eq_zero j
    have ordered : ¬ (1e2 : ℝ) < -1e20 := by norm_num
    exact Bounds.inequalityFault_eq_none_iff.mpr ⟨Bounds.variableFault_eq_none_iff.mpr
      ⟨isUndefined_real _, isUndefined_real _, ordered, fun _ => apartS⟩, .inr hundred⟩
  · intro i
    obtain rfl := Fin.fin_one_eq_zero i
    exact apartX
  · intro j
    obtain rfl := Fin.fin_one_eq_zero j
    exact apartS

theorem created (x : ℝ) :
    (Engine.create (problem x) (settings x)).outcome ⟨(), []⟩ = (.ok (engine x), ⟨(), []⟩) := by
  have queried : (Bounds.ofProblem (problem x) (.ofSettings (settings x))).run () =
      (.ok bounds, ()) := by
    rw [← bounds_of_raw (.ofSettings (settings x))]
    rfl
  have unmoved : bounds.relax (settings x).boundRelaxFactor = bounds := by
    simp [Bounds.relax, settings]
  exact Engine.create_unmoved rfl queried rfl unmoved rfl

theorem succeedsAt (x : ℝ) (v : Vector ℝ 1) : (problem x).SucceedsAt v where
  objective _ _ := rfl
  equalities _ _ := rfl
  inequalities _ _ := rfl
  gradient _ _ := rfl
  equalityJacobian _ _ := rfl
  inequalityJacobian _ _ := rfl

/-- Both bodies are the variable itself. -/
theorem bodies_of_values {e : Evaluation ℝ trio} {v : Vector ℝ 1}
    (h : e.ValuesAt (problem x) v) : e.eq.get 0 = v.get 0 ∧ e.ineq.get 0 = v.get 0 := by
  refine ⟨?_, ?_⟩
  · rw [h.eq.eq_of_written rfl]
    rfl
  · rw [h.ineq.eq_of_written rfl]
    rfl

/-- All derivatives of first order are one. -/
theorem derivatives_of_answers {e : Evaluation ℝ trio} {v : Vector ℝ 1}
    (h : e.AnswersAt (problem x) v) :
    e.grad.get 0 = 1 ∧ e.jacEq.entry 0 0 = 1 ∧ e.jacIneq.entry 0 0 = 1 := by
  have grad : e.grad = #v[1] := h.grad.eq_of_written rfl
  have jacEq : e.jacEq = #v[#v[1]] := Answered.eq_of_written rfl ⟨_, h.jacEq⟩
  have jacIneq : e.jacIneq = #v[#v[1]] := Answered.eq_of_written rfl ⟨_, h.jacIneq⟩
  rw [grad, jacEq, jacIneq]
  exact ⟨rfl, rfl, rfl⟩

theorem violation_eq (e : Evaluation ℝ trio) (it : Iterate ℝ trio) :
    violation e it = |e.eq.get 0| + |e.ineq.get 0 - it.s.point.get 0| := by
  rw [violation_eq_sum]
  simp

/-- The state stands at the start with barrier parameter `mu`, and no pair is recorded. -/
structure At (x mu : ℝ) (s : State ℝ Unit trio) : Prop where
  point : s.curr.x.point.get 0 = x
  slack : s.curr.s.point.get 0 = 99
  distance : s.curr.x.slackLo.get 0 = x
  gap : s.curr.s.slackHi.get 0 = 1
  multX : s.curr.x.multLo.get 0 = 1
  multS : s.curr.s.multHi.get 0 = 1
  multEq : s.curr.yc.get 0 = 0
  multIneq : s.curr.yd.get 0 = 0
  mu : s.mu = mu
  filter : s.filter.entries = []
  search : s.lineSearch = .ofSettings (settings x) (x + (x - 99))
  exact : s.curvature.isExact = true
  coherent : s.Coherent (setup x)
  inside : ∃ start, s.Interior (setup x) start

/-- The direction from the start, to zero. -/
structure Homeward (x mu : ℝ) (dir : Direction ℝ trio) : Prop where
  point : dir.x.point.get 0 = -x
  slack : dir.s.point.get 0 = -99
  multEq : dir.dyc.get 0 = 99 - mu + mu / x
  multIneq : dir.dyd.get 0 = mu - 99

/-- The state stands halfway between the start and zero, with the multipliers of half a Newton step
and those of the bounds clipped. -/
structure Midway (x mu : ℝ) (s : State ℝ Unit trio) : Prop where
  point : s.curr.x.point.get 0 = x / 2
  slack : s.curr.s.point.get 0 = 99 / 2
  distance : s.curr.x.slackLo.get 0 = x / 2
  gap : s.curr.s.slackHi.get 0 = 101 / 2
  multX : s.curr.x.multLo.get 0 = mu / (x / 2)
  multS : s.curr.s.multHi.get 0 = mu / (101 / 2)
  multEq : s.curr.yc.get 0 = (99 - mu + mu / x) / 2
  multIneq : s.curr.yd.get 0 = (mu - 99) / 2
  mu : s.mu = mu
  coherent : s.Coherent (setup x)
  inside : ∃ start, s.Interior (setup x) start

variable {s : State ℝ Unit trio} {dir : Direction ℝ trio}

theorem hess_symmetric (s : State ℝ Unit trio) : (s.newtonData (setup x)).hess.Symmetric := by
  intro i j
  rw [Subsingleton.elim i j]

namespace At

theorem interior (h : At x mu s) : s.curr.Interior bounds := by
  obtain ⟨start, inside⟩ := h.inside
  exact inside.curr

theorem pos (h : At x mu s) : 0 < x := h.distance ▸ h.interior.x.slackLo.pos rfl

theorem bodies (h : At x mu s) : s.eval.eq.get 0 = x ∧ s.eval.ineq.get 0 = x := by
  obtain ⟨equality, inequality⟩ := bodies_of_values h.coherent.eval.toValuesAt
  rw [h.point] at equality inequality
  exact ⟨equality, inequality⟩

/-- The Newton system: no curvature, the barrier terms of the two bounds, and both constraints. -/
theorem newtonData (h : At x mu s) (flat : s.curvature = .exact #v[#v[0]]) :
    let data := s.newtonData (setup x)
    data.hess.entry 0 0 = 0 ∧ data.sigmaX.get 0 = 1 / x ∧ data.sigmaS.get 0 = 1 ∧
      data.jacEq.entry 0 0 = 1 ∧ data.jacIneq.entry 0 0 = 1 ∧
      data.rhsX.get 0 = mu / x - 1 ∧ data.rhsS.get 0 = -mu ∧ data.rhsEq.get 0 = -x ∧
      data.rhsIneq.get 0 = 99 - x := by
  obtain ⟨grad, jacEq, jacIneq⟩ := derivatives_of_answers h.coherent.eval
  obtain ⟨equality, inequality⟩ := h.bodies
  refine ⟨?_, ?_, ?_, jacEq, jacIneq, ?_, ?_, ?_, ?_⟩
  · simp only [State.newtonData, flat]
    rfl
  · simp only [State.newtonData, Block.diagonal, Vector.get_ofFn, h.distance, h.multX]
    simp [bounds, Vector.get]
  · simp only [State.newtonData, Block.diagonal, Vector.get_ofFn, h.gap, h.multS]
    simp [bounds, Vector.get]
  · simp only [State.newtonData, barrierGradients, Block.barrierPull, Block.pull, pulled,
      Vector.get_ofFn, Vector.get_map, Evaluation.lagrangianGradient,
      Dense.get_addTransposeProduct, h.distance, h.mu, grad]
    simp [bounds, h.multEq, h.multIneq]
  · simp only [State.newtonData, barrierGradients, Block.barrierPull, Block.pull, pulled,
      Vector.get_ofFn, Vector.get_map, h.gap, h.mu, h.multIneq]
    simp [bounds]
  · simp only [State.newtonData, Vector.get_map, equality]
  · simp only [State.newtonData, get_zipWith, inequality, h.slack]

theorem matrix_eq (h : At x mu s) (flat : s.curvature = .exact #v[#v[0]]) (i j : Fin 4) :
    ((s.newtonData (setup x)).matrix 0 0).entry i j =
      !![1 / x, 0, 1, 1; 0, 1, 0, -1; 1, 0, 0, 0; 1, -1, 0, 0] i j := by
  obtain ⟨hess, sigmaX, sigmaS, jacEq, jacIneq, -⟩ := h.newtonData flat
  have blocks (a b) : ((s.newtonData (setup x)).matrix 0 0).entry (Newton.position trio a)
      (Newton.position trio b) = (s.newtonData (setup x)).blocks 0 0 a b :=
    congrFun (congrFun ((s.newtonData (setup x)).matrix_eq_blocks 0 0) a) b
  obtain ⟨a, rfl⟩ : ∃ a, Newton.position trio a = i := (Newton.position trio).surjective i
  obtain ⟨b, rfl⟩ : ∃ b, Newton.position trio b = j := (Newton.position trio).surjective j
  refine (blocks a b).trans ?_
  rcases a with (a | a) | (a | a) <;> rcases b with (b | b) | (b | b) <;>
    obtain rfl := Fin.fin_one_eq_zero a <;> obtain rfl := Fin.fin_one_eq_zero b
  all_goals
    simp [Newton.Data.blocks, Newton.Data.primalBlock, Newton.Data.jacobian, hess, sigmaX, sigmaS,
      jacEq, jacIneq]
  all_goals rfl

/-- The system is not shifted: it has as many equalities as variables, its largest entries are units
already, and its solutions do not grow. -/
theorem fits [solver : DenseSolver ℝ] (exact : EigenExact solver) (one_le : 1 ≤ x)
    (h : At x mu s) (flat : s.curvature = .exact #v[#v[0]]) :
    (Newton.factor ((s.newtonData (setup x)).matrix 0 0)).inertia = Newton.targetInertia trio := by
  have entries := h.matrix_eq flat
  have hess : (s.newtonData (setup x)).hess.Symmetric := hess_symmetric s
  have symmetric := Newton.Data.matrix_symmetric hess 0 0
  have inverse_le : x⁻¹ ≤ 1 := inv_le_one_of_one_le₀ one_le
  refine Newton.inertia_of_square exact hess rfl ?_
  generalize (s.newtonData (setup x)).matrix 0 0 = k at entries symmetric
  have balanced : Newton.Balanced (n := 4) k := by
    refine ⟨fun i j => ?_, fun i => ⟨![2, 1, 0, 0] i, ?_⟩⟩
    · rw [entries]
      fin_cases i <;> fin_cases j <;> simp [abs_of_pos h.pos, inverse_le]
    · rw [entries]
      fin_cases i <;> simp
  refine balanced.regular exact symmetric (by norm_num) (by norm_num : (0 : ℝ) < 5) ?_ (by norm_num)
  intro v b bounded
  obtain ⟨first, second, third, fourth⟩ : |x⁻¹ * v 0 + v 2 + v 3| ≤ b ∧ |v 1 - v 3| ≤ b ∧
      |v 0| ≤ b ∧ |v 0 - v 1| ≤ b := by
    have row (i : Fin 4) : |∑ j, (!![1 / x, 0, 1, 1; 0, 1, 0, -1; 1, 0, 0, 0; 1, -1, 0, 0] i j : ℝ)
        * v j| ≤ b := by
      simp only [← entries]
      exact bounded i
    simpa [Fin.forall_fin_succ, Fin.sum_univ_four, ← sub_eq_add_neg] using row
  have damped : |x⁻¹ * v 0| ≤ b := by
    rw [abs_mul, abs_of_pos (inv_pos.mpr h.pos)]
    exact (mul_le_of_le_one_left (abs_nonneg _) inverse_le).trans third
  rw [abs_le] at first second third fourth damped
  have small : |v 0| ≤ 5 * b ∧ |v 1| ≤ 5 * b ∧ |v 2| ≤ 5 * b ∧ |v 3| ≤ 5 * b := by
    simp only [abs_le]
    refine ⟨⟨?_, ?_⟩, ⟨?_, ?_⟩, ⟨?_, ?_⟩, ?_, ?_⟩ <;> linarith
  change ∀ i : Fin 4, |v i| ≤ 5 * b
  simpa [Fin.forall_fin_succ] using small

theorem of_kept {s' : State ℝ Unit trio} (h : At x mu s) (kept : s.Kept s')
    (exact : s'.curvature.isExact = true) : At x mu s' := by
  have coherent := h.coherent.of_kept kept
  obtain ⟨start, inside⟩ := h.inside
  have inside' := inside.of_kept kept
  obtain ⟨w, k, m, t, rfl⟩ := kept
  exact ⟨h.point, h.slack, h.distance, h.gap, h.multX, h.multS, h.multEq, h.multIneq, h.mu,
    h.filter, h.search, exact, coherent, start, inside'⟩

/-- Refreshing the Hessian leaves the state where it is, with the flat Hessian of the problem. -/
theorem refreshed (h : At x mu s) : ∃ s', (refreshCurvature (setup x)).outcome s = (.ok (), s') ∧
    s.Kept s' ∧ s'.curvature = .exact #v[#v[0]] :=
  ⟨_, refreshCurvature_of_answer h.exact rfl (allFinite_real _), ⟨_, _, _, _, rfl⟩, rfl⟩

/-- What an unshifted solve says of the direction, row by row. -/
theorem homeward [solver : DenseSolver ℝ] (exact : EigenExact solver) (h : At x mu s)
    (flat : s.curvature = .exact #v[#v[0]]) {st : Newton.ShiftMemory ℝ} {sol : Newton.Solution ℝ trio}
    (solved : (Newton.solve (.ofSettings (settings x)) st (s.newtonData (setup x))).result = .ok sol)
    (shiftW : sol.deltaW = 0) (shiftC : sol.deltaC = 0) :
    Homeward x mu (.ofNewton sol s.curr bounds s.mu) := by
  obtain ⟨primal, dual⟩ := (Newton.solve_iff exact (hess_symmetric s) solved _ _).mpr ⟨rfl, rfl⟩
  rw [Newton.Solution.primal, Newton.Solution.dual, Newton.Data.primalRows_iff] at primal
  rw [Newton.Solution.primal, Newton.Solution.dual, Newton.Data.dualRows_iff] at dual
  obtain ⟨hess, sigmaX, sigmaS, jacEq, jacIneq, rhsX, rhsS, rhsEq, rhsIneq⟩ := h.newtonData flat
  have rowX := primal.1 0
  have rowS := primal.2 0
  have rowEq := dual.1 0
  have rowIneq := dual.2 0
  simp only [Finset.univ_unique, Finset.sum_singleton, Fin.default_eq_zero, hess, sigmaX, sigmaS,
    jacEq, jacIneq, rhsX, rhsS, rhsEq, rhsIneq, shiftW, shiftC, zero_mul, one_mul, zero_add,
    add_zero, sub_zero] at rowX rowS rowEq rowIneq
  have dx : sol.dx.get 0 = -x := rowEq
  have ds : sol.ds.get 0 = -99 := by linarith
  have cancels : 1 / x * x = 1 := one_div_mul_cancel h.pos.ne'
  rw [dx, mul_neg, cancels] at rowX
  rw [ds] at rowS
  have dyd : sol.dyd.get 0 = mu - 99 := by linarith
  have dyc : sol.dyc.get 0 = 99 - mu + mu / x := by linarith
  exact ⟨dx, ds, dyc, dyd⟩

/-- The search direction leads to zero and takes the slack with it, from a solve without shifts. -/
theorem direction [solver : DenseSolver ℝ] (exact : EigenExact solver) (one_le : 1 ≤ x)
    (h : At x mu s) : ∃ dir s' sol,
      (searchDirection (setup x)).outcome s = (.ok dir, s') ∧ At x mu s' ∧
      s'.curvature = .exact #v[#v[0]] ∧
      (Newton.solve (.ofSettings (settings x)) s.shifts (s'.newtonData (setup x))).result =
        .ok sol ∧ sol.deltaW = 0 ∧ sol.deltaC = 0 ∧ Homeward x mu dir := by
  obtain ⟨dir, s', searched, same⟩ : ∃ dir s',
      (searchDirection (setup x)).outcome s = (.ok dir, s') ∧
        s'.curvature = .exact #v[#v[0]] := by
    obtain ⟨s₁, refreshed, kept, flat⟩ := h.refreshed
    have fits := (h.of_kept kept (by rw [flat]; rfl)).fits exact one_le flat
    obtain ⟨s', searched, same, -⟩ := searchDirection_of_solved refreshed
      (Newton.solve_of_inertia (.ofSettings (settings x)) s₁.shifts fits)
    exact ⟨_, s', searched, same.trans flat⟩
  obtain ⟨kept, sol, solved, rfl⟩ := searchDirection_ok searched
  have h' := h.of_kept kept (by rw [same]; rfl)
  obtain ⟨shiftW, shiftC⟩ : sol.deltaW = 0 ∧ sol.deltaC = 0 := by
    have plain := solved.symm.trans (Newton.solve_of_inertia (.ofSettings (settings x)) s.shifts
      (h'.fits exact one_le same))
    rw [Except.ok.inj plain]
    exact ⟨rfl, rfl⟩
  obtain ⟨w, k, m, t, rfl⟩ := kept
  exact ⟨_, _, sol, searched, h', same, solved, shiftW, shiftC,
    h'.homeward exact same solved shiftW shiftC⟩

theorem tau (h : At x mu s) (large : 1 / 2 ≤ mu) : s.tau = 1 / 2 := by
  have least : (setup x).schedule.tauMin = 1 / 2 := by
    norm_num [Setup.schedule, Schedule.ofSettings, setup, settings]
  rw [h.coherent.tau, h.mu, Schedule.tau, maxNum_real, least]
  exact max_eq_left (by linarith)

/-- The boundary shortens the step by half. -/
theorem primalStep (h : At x mu s) (large : 1 / 2 ≤ mu) (back : Homeward x mu dir) :
    s.curr.maxPrimalStep dir bounds s.tau = 1 / 2 := by
  have positive := h.interior.slacksPositive
  have half := h.tau large
  have tau_nonneg : 0 ≤ s.tau := by
    rw [half]
    norm_num
  apply le_antisymm
  · obtain ⟨-, ⟨kept, -⟩, -⟩ := (Iterate.le_maxPrimalStep positive tau_nonneg
      (Iterate.maxPrimalStep_nonneg positive tau_nonneg dir)).mp le_rfl
    have share := kept 0 rfl
    simp only [Iterate.trial, Block.moved, Vector.get_ofFn, lower_present, if_true, h.distance, half,
      back.point] at share
    rw [half]
    refine le_of_mul_le_mul_right ?_ h.pos
    linarith
  · rw [Iterate.le_maxPrimalStep positive tau_nonneg (by norm_num)]
    refine ⟨by norm_num, ⟨?_, ?_⟩, ?_, ?_⟩ <;> intro i present <;>
      obtain rfl := Fin.fin_one_eq_zero i
    · simp only [Iterate.trial, Block.moved, Vector.get_ofFn, present, if_true, h.distance, half,
        back.point]
      linarith
    · cases present
    · cases present
    · simp only [Iterate.trial, Block.moved, Vector.get_ofFn, present, if_true, h.gap, half,
        back.slack]
      norm_num

/-- Half the step is taken, a filter step: it halves the violation. -/
theorem accepted (h : At x mu s) (large : 1 / 2 ≤ mu) (hundred_le : 100 ≤ x)
    (back : Homeward x mu dir) : ∃ e w,
      (lineSearch (setup x) dir (s.curr.maxPrimalStep dir bounds s.tau)).outcome s =
        (.ok (⟨1 / 2, .filter, 0⟩, e), { s with world := w, trialEval := e }) := by
  rw [h.primalStep large back]
  obtain ⟨⟨e, w⟩, evaluated⟩ := Evaluation.funcs_succeeds
    (succeedsAt x (s.curr.trial dir bounds (1 / 2)).x.point) (s.trialEval, ())
  have tried := measureTrial_of_values (c := setup x) (s := s) (w := s.world) evaluated
  have here : (s.measures (setup x)).theta = x + (x - 99) := by
    obtain ⟨equality, inequality⟩ := h.bodies
    rw [State.measures, violation_eq, equality, inequality, h.slack, abs_of_pos h.pos,
      abs_of_pos (by linarith)]
  have there : (trialMeasures (setup x) s dir (1 / 2) e).theta = (x + (x - 99)) / 2 := by
    obtain ⟨equality, inequality⟩ := bodies_of_values (measureTrial_ok tried).1
    rw [trialMeasures, violation_eq, equality, inequality]
    simp only [Iterate.trial, Block.moved, Vector.get_ofFn, h.point, h.slack, back.point, back.slack]
    rw [abs_of_pos (by linarith), abs_of_pos (by linarith)]
    ring
  have passed : s.lineSearch.accept s.filter (s.measures (setup x))
      (trialMeasures (setup x) s dir (1 / 2) e) (1 / 2)
      (barrierSlope s.eval s.curr dir bounds s.mu) = some .filter := by
    have start_ge : 1 ≤ x + (x - 99) := by linarith
    rw [h.search]
    refine LineSearch.accept_of_improved _ _ h.filter ?_ ?_ ?_ <;>
      simp only [LineSearch.ofSettings, here, there, maxNum_real, max_eq_left start_ge]
    · linarith
    · linarith
    · norm_num [settings, InteriorSettings.default]
      linarith
  have measurable : ¬dir.relativeSize s.curr < tinyStep := by
    intro small
    have step := ((dir.relativeSize_le_iff s.curr _).mp small.le).2.1 0
    rw [back.point, h.point, abs_neg, abs_of_pos h.pos, div_le_iff₀ (by linarith)] at step
    norm_num [tinyStep] at step
    linarith
  have found := lineSearch_of_first tried passed
  rw [if_neg measurable] at found
  exact ⟨e, _, found⟩

variable [solver : DenseSolver ℝ]

/-- Half the direction leads halfway, where the multipliers of the bounds are clipped. -/
theorem midway (h : At x mu s) (large : 1 / 2 ≤ mu) (back : Homeward x mu dir)
    {e : Evaluation ℝ trio} {s' : State ℝ Unit trio}
    (chosen : Chosen (setup x) s dir ⟨1 / 2, .filter, 0⟩ e)
    (completed : (advance (setup x)).outcome s = (.ok (), s')) : Midway x mu s' := by
  have x_pos := h.pos
  obtain ⟨start, inside⟩ := h.inside
  obtain ⟨inside', -⟩ := inside.of_advance (settings_inRange x_pos) completed
  have coherent := h.coherent.of_advance completed
  have curr := curr_of_advance chosen completed
  have same_mu := advance_mu completed
  have mu_pos : 0 < mu := by linarith
  have clipped_eq {t : ℝ} (t_pos : 0 < t) (z : ℝ) : clipped mu 1 t z = mu / t := by
    obtain ⟨lower, upper⟩ := clipped_mem (z := z) mu_pos (le_refl 1) t_pos
    rw [one_mul] at lower upper
    exact le_antisymm upper lower
  dsimp only at curr
  generalize s.curr.maxDualStep dir (setup x).bounds s.tau = alphaDual at curr
  refine ⟨?_, ?_, ?_, ?_, ?_, ?_, ?_, ?_, same_mu.trans h.mu, coherent, start, inside'⟩ <;>
    rw [curr] <;>
    simp only [Iterate.clip, Iterate.refreshMultipliers, setup_settings, settings,
      Iterate.takeConstraintStep, Iterate.takeBoundStep, Iterate.trial, Block.multipliersClipped,
      Block.multipliersMoved, Block.moved, Vector.get_ofFn, get_zipWith, setup_bounds,
      lower_present, upper_present, if_true, h.point, h.slack, h.distance, h.gap, h.mu, h.multEq,
      h.multIneq, back.point, back.slack, back.multEq, back.multIneq]
  · ring
  · norm_num
  · ring
  · norm_num
  · rw [clipped_eq (by linarith)]
    ring
  · rw [clipped_eq (by norm_num)]
    norm_num
  · ring
  · ring

/-- The iteration is completed halfway. -/
theorem stepped (exact : EigenExact solver) (large : 1 / 2 ≤ mu) (hundred_le : 100 ≤ x)
    (h : At x mu s) : ∃ dir acc e s', Chosen (setup x) s dir acc e ∧ acc.alpha = 1 / 2 ∧
      acc.kind = .filter ∧ (advance (setup x)).outcome s = (.ok (), s') ∧ Midway x mu s' := by
  obtain ⟨dir, s₁, sol, searched, h₁, -, -, -, -, back⟩ := h.direction exact (by linarith)
  obtain ⟨e, w, found⟩ := h₁.accepted large hundred_le back
  have chosen := Chosen.of_outcomes searched found
  obtain ⟨s', completed⟩ : ∃ s', (advance (setup x)).outcome s = (.ok (), s') := by
    generalize at_new : State.moveTo { s₁ with world := w, trialEval := e } (setup x) dir
      ⟨1 / 2, .filter, 0⟩ e (s₁.curr.maxDualStep dir bounds s₁.tau) = moved
    obtain ⟨⟨e', w'⟩, evaluated⟩ :=
      Evaluation.derivs_succeeds (succeedsAt x moved.curr.x.point) (moved.eval, ())
    exact ⟨_, advance_of_accepted searched found rfl at_new.symm
      (Step.outcome_within_ok.mpr ⟨_, evaluated, rfl⟩)⟩
  exact ⟨dir, _, e, s', chosen, rfl, rfl, completed, h.midway large back chosen completed⟩

end At

/-- The floor of the barrier parameter is half its starting value. -/
theorem floor_eq (x : ℝ) : (setup x).schedule.muMin = x / 20 := by
  norm_num [Setup.schedule, Schedule.ofSettings, setup, settings]
  ring

/-- The parameter after the starting value is the floor. -/
theorem next_eq (x : ℝ) : (setup x).schedule.next (x / 10) = x / 20 := by
  apply le_antisymm
  · refine (Schedule.next_le _ _).trans (max_le (floor_eq x).le ?_)
    norm_num [Setup.schedule, Schedule.ofSettings, setup, settings]
    linarith
  · exact (floor_eq x).ge.trans (Schedule.muMin_le_next _ _)

namespace At

theorem scale_pos (x : ℝ) : 0 < (settings x).pSmax := by
  norm_num [settings, InteriorSettings.default]

/-- The violation keeps the first check from ending the run. -/
theorem undecided (h : At x mu s) (hundred_le : 100 ≤ x) (early : s.iter = 0) :
    s.checked.1 = none := by
  have large {bound : ℝ} (nonneg : 0 ≤ bound) (small : bound < x) :
      ¬s.resid.nlpOverall ≤ bound := by
    rw [h.coherent.resid]
    intro le
    obtain ⟨-, feasible, -⟩ :=
      (Residual.compute_nlpOverall_le_iff h.interior (scale_pos x) nonneg).mp le
    have equality := feasible.equalities 0
    rw [h.bodies.1, abs_of_pos h.pos] at equality
    linarith
  have inRange := settings_inRange h.pos
  refine h.coherent.undecided (large inRange.tolerance.le ?_) (large ?_ ?_) (lt_irrefl 0) ?_
  · norm_num [settings]
    linarith
  · norm_num [settings, InteriorSettings.default]
  · norm_num [settings, InteriorSettings.default]
    linarith
  · rw [early]
    exact Nat.succ_pos _

/-- At the start the barrier problem counts as solved. -/
theorem solved (h : At x (x / 10) s) (hundred_le : 100 ≤ x) : s.resid.barOverall ≤ x := by
  obtain ⟨grad, jacEq, jacIneq⟩ := derivatives_of_answers h.coherent.eval
  obtain ⟨equality, inequality⟩ := h.bodies
  have upper : s.curr.x.multHi.get 0 = 0 := h.interior.x.multHi.zero rfl
  have lower : s.curr.s.multLo.get 0 = 0 := h.interior.s.multLo.zero rfl
  rw [h.coherent.resid]
  refine Residual.compute_barOverall_le h.interior (scale_pos x) h.pos.le
    ⟨?_, ?_⟩ ⟨?_, ?_⟩ ⟨?_, ?_, ?_, ?_⟩ <;> intro i <;> obtain rfl := Fin.fin_one_eq_zero i
  · simp [grad, jacEq, jacIneq, h.multEq, h.multIneq, h.multX, upper, h.pos.le]
  · rw [h.multIneq, h.multS, lower, abs_le]
    constructor <;> linarith
  · rw [equality, abs_of_pos h.pos]
  · rw [inequality, h.slack, abs_of_pos (by linarith)]
    linarith
  · intro _
    rw [h.distance, h.multX, h.mu, abs_le]
    constructor <;> linarith
  · intro present
    cases present
  · intro present
    cases present
  · intro _
    rw [h.gap, h.multS, h.mu, abs_le]
    constructor <;> linarith

/-- The first report comes with half the barrier parameter. -/
theorem lowers (h : At x (x / 10) s) (hundred_le : 100 ≤ x) :
    Lowers (setup x) 1 s.checked.2 (s.reported (setup x)) ∧
      At x (x / 20) (s.reported (setup x)) := by
  have inRange := settings_inRange h.pos
  have start_pos : 0 < x / 10 := div_pos h.pos (by norm_num)
  have goes : ¬s.checked.2.KeepsBarrier (setup x) := by
    rw [State.KeepsBarrier, not_or]
    constructor
    · have good : s.resid.barOverall ≤ (settings x).kappaEps * s.mu := by
        rw [h.mu]
        norm_num [settings, InteriorSettings.default]
        linarith [h.solved hundred_le]
      simp [Setup.schedule, Schedule.subproblemSolved, Schedule.ofSettings, State.checked, good]
    · change ¬s.mu ≤ (setup x).schedule.next s.mu
      rw [h.mu, next_eq]
      linarith
  have low : (s.checked.2.lowerBarrier (setup x)).mu = x / 20 := by
    rw [State.lowerBarrier_mu, ← next_eq, ← h.mu]
    rfl
  have keeps : (s.checked.2.lowerBarrier (setup x)).KeepsBarrier (setup x) := by
    right
    rw [low]
    exact (floor_eq x).ge.trans (Schedule.muMin_le_next _ _)
  obtain ⟨k, -, whole⟩ := updateBarrier_lowers (c := setup x) (s := s.checked.2) inRange
    (h.mu ▸ start_pos)
  obtain ⟨rfl, reported⟩ := (Lowers.again goes (.done keeps)).unique whole
  refine ⟨whole, ?_⟩
  have coherent := h.coherent.reported
  obtain ⟨start, inside⟩ := h.inside
  have inside' := inside.reported inRange
  obtain ⟨w, lowered⟩ := s.checked.2.lowerBarrier_eq (setup x)
  rw [State.reported, reported, lowered] at coherent inside' ⊢
  rw [lowered] at low
  exact ⟨h.point, h.slack, h.distance, h.gap, h.multX, h.multS, h.multEq, h.multIneq, low, rfl,
    h.search, h.exact, coherent, start, inside'⟩

end At

theorem Midway.checked (h : Midway x mu s) : Midway x mu s.checked.2 := by
  obtain ⟨start, inside⟩ := h.inside
  exact ⟨h.point, h.slack, h.distance, h.gap, h.multX, h.multS, h.multEq, h.multIneq, h.mu,
    h.coherent.checked, start, inside.mu, inside.tau, inside.curr, inside.carried⟩

/-- Halfway every error is within the tolerance. -/
theorem Midway.verdict (h : Midway x (x / 20) s) (hundred_le : 100 ≤ x) :
    s.checked.1 = some .success := by
  have x_pos : 0 < x := by linarith
  obtain ⟨start, inside⟩ := h.inside
  have interior : s.curr.Interior bounds := inside.curr
  have half : (settings x).tolerance = x / 2 := by
    norm_num [settings]
    ring
  obtain ⟨grad, jacEq, jacIneq⟩ := derivatives_of_answers h.coherent.eval
  obtain ⟨equality, inequality⟩ := bodies_of_values h.coherent.eval.toValuesAt
  have upper : s.curr.x.multHi.get 0 = 0 := interior.x.multHi.zero rfl
  have lower : s.curr.s.multLo.get 0 = 0 := interior.s.multLo.zero rfl
  rw [h.coherent.success_iff, h.coherent.resid, setup_settings, half]
  refine Residual.compute_nlpOverall_le interior (At.scale_pos x) (by linarith)
    ⟨?_, ?_⟩ ⟨?_, ?_⟩ ⟨?_, ?_, ?_, ?_⟩ <;> intro i <;> obtain rfl := Fin.fin_one_eq_zero i
  · have multEq : x / 20 / x = 1 / 20 := by
      field_simp
    have multX : x / 20 / (x / 2) = 1 / 10 := by
      field_simp
      norm_num
    simp only [Finset.univ_unique, Finset.sum_singleton, Fin.default_eq_zero, grad, jacEq, jacIneq,
      h.multEq, h.multIneq, h.multX, upper, multEq, multX, abs_le]
    constructor <;> linarith
  · rw [h.multIneq, h.multS, lower, abs_le]
    constructor <;> linarith
  · rw [equality, h.point, abs_of_pos (by linarith)]
  · rw [inequality, h.point, h.slack, abs_of_pos (by linarith)]
    linarith
  · intro _
    rw [h.distance, h.multX, mul_div_cancel₀ _ (by linarith : x / 2 ≠ 0)]
    linarith
  · intro present
    cases present
  · intro present
    cases present
  · intro _
    rw [h.gap, h.multS]
    linarith

/-- The start keeps its point. -/
theorem pushed_point (hundred_le : 100 ≤ x) : bounds.x.pushInside (settings x).kappa1
    (settings x).kappa2 #v[x] = #v[x] := by
  have lower : bounds.x.lower.get 0 = ⟨0, true⟩ := rfl
  have absent : (bounds.x.upper.get 0).present = false := rfl
  apply Linear.ext_get
  intro i
  obtain rfl := Fin.fin_one_eq_zero i
  simp only [Box.get_pushInside, pushInside, lower, absent, maxNum_real, magnitude_real]
  norm_num [settings, InteriorSettings.default]
  linarith

/-- The slack is pushed inside. -/
theorem pushed_slack (x : ℝ) {body : Vector ℝ 1} (ge : 99 ≤ body.get 0) :
    (bounds.s.pushInside (settings x).kappa1 (settings x).kappa2 body).get 0 = 99 := by
  have absent : (bounds.s.lower.get 0).present = false := rfl
  have upper : bounds.s.upper.get 0 = ⟨1e2, true⟩ := rfl
  simp only [Box.get_pushInside, pushInside, upper, absent, minNum_real, maxNum_real, magnitude_real]
  norm_num [settings, InteriorSettings.default]
  exact ge

variable [solver : DenseSolver ℝ]

theorem started (hundred_le : 100 ≤ x) (exact : s.curvature.isExact = true) :
    ∃ first, (startingProcedure (setup x)).outcome s = (.ok (), first) ∧
      At x (x / 10) first ∧ first.iter = s.iter := by
  obtain ⟨first, ok⟩ :=
    startingProcedure_succeeds (c := setup x) (fun _ => rfl) (fun _ _ => succeedsAt x _) s
  have coherent := State.Coherent.of_start ok
  have inside := State.Interior.of_start (settings_inRange (by linarith)) ok
  obtain ⟨x0, v, e, w₀, w₁, w, given, -, pushed, answered, rfl⟩ := startingProcedure_parts ok
  obtain rfl : x0 = #v[x] := Answered.eq_of_written rfl ⟨_, given⟩
  obtain rfl : v = #v[x] := pushed.trans (pushed_point hundred_le)
  obtain ⟨equality, inequality⟩ : e.eq.get 0 = x ∧ e.ineq.get 0 = x :=
    bodies_of_values (Evaluation.all_ok answered).toValuesAt
  have slack := pushed_slack x (inequality.ge.trans' (by linarith) : 99 ≤ e.ineq.get 0)
  have multipliers : startMultipliersAt (setup x) #v[x] e = (#v[0], #v[0]) := rfl
  rw [multipliers] at ok coherent inside
  refine ⟨_, ok, ⟨rfl, slack, ?_, ?_, ?_, ?_, rfl, rfl, ?_, rfl, ?_, exact, coherent, _, inside⟩,
    rfl⟩ <;>
    simp only [State.started, startIterate, Iterate.withConstraintMultipliers,
      Iterate.withMultipliers, Iterate.withSlacks, Block.withMultipliers, Block.withSlacks,
      Vector.get_ofFn, Vector.get_map, setup_bounds, setup_settings, lower_present, upper_present,
      if_true, maxNum_real, slack]
  · change max (x - 0) minSlack = x
    rw [sub_zero]
    refine max_eq_left ?_
    norm_num [minSlack]
    linarith
  · change max (1e2 - 99 : ℝ) minSlack = 1
    norm_num [minSlack]
  · norm_num [settings]
    ring
  · rw [violation_eq, equality, inequality]
    simp only [slack]
    rw [abs_of_pos (by linarith), abs_of_pos (by linarith)]

/-- The state before the first pass. -/
theorem headed (hundred_le : 100 ≤ x) :
    ∃ first, (startingProcedure (setup x)).outcome (engine x).opened = (.ok (), first) ∧
      At x (x / 10) (first.headed (setup x)) ∧ (first.headed (setup x)).iter = 0 := by
  obtain ⟨w, opened⟩ := (engine x).opened_eq
  obtain ⟨first, started, h, counted⟩ : ∃ first,
      (startingProcedure (setup x)).outcome (engine x).opened = (.ok (), first) ∧
        At x (x / 10) first ∧ first.iter = 0 := by
    rw [opened]
    exact Halfway.started hundred_le rfl
  obtain ⟨w', headed⟩ := first.headed_eq (setup x)
  refine ⟨first, started, ?_, ?_⟩
  · rw [headed]
    exact h.of_kept ⟨_, _, _, _, rfl⟩ h.exact
  · rw [headed]
    exact counted

/-- A run halves the barrier parameter, reports the start, takes half a Newton step and succeeds. -/
theorem run (exact : EigenExact solver) (hundred_le : 100 ≤ x) : ∃ first s last,
    (engine x).Follows Observer.silent () first [s.reported (setup x)] (.ok .success) last ∧
      At x (x / 10) s ∧ At x (x / 20) (s.reported (setup x)) ∧ Midway x (x / 20) last ∧
      Lowers (setup x) 1 s.checked.2 (s.reported (setup x)) ∧
      ∃ dir acc e, Chosen (setup x) (s.reported (setup x)) dir acc e ∧ acc.alpha = 1 / 2 ∧
        acc.kind = .filter := by
  obtain ⟨first, started, h, counted⟩ := headed hundred_le
  obtain ⟨lowers, reported⟩ := h.lowers hundred_le
  obtain ⟨dir, acc, e, s', chosen, half, kind, step, midway⟩ :=
    reported.stepped exact (by linarith) hundred_le
  have course : Course (setup x) Observer.silent 3001 (first.headed (setup x)) () _ _ _ () :=
    .stepped (h.undecided hundred_le counted) rfl step (.decided (midway.verdict hundred_le))
  exact ⟨first, _, _, .of_course (e := engine x) started course, h, reported, midway.checked,
    lowers, dir, acc, e, chosen, half, kind⟩

end Barrier.Halfway

end SmoothOpt
