import Mathlib
import SmoothOpt.Proofs.Barrier.Ray
import SmoothOpt.Proofs.Barrier.Restart

/-!
Running an engine again.

A run begins with a start that writes the whole state, but two things are carried from one run to
the next: the Hessian approximation and the memory of the shifts. With these put back, an engine
that has run tells the observer of its next run what it would have told before. Without, it need
not: on a flat objective the count of shifted solves goes on where the run before has left it.
-/
namespace SmoothOpt.Barrier

open Scalar Linear Step

section Margins

variable {α σ ω : Type} [Scalar α] {d : Dims} [DenseSolver α] {c : Setup α σ d}

/-- Nothing a run does to the filter touches its margins. -/
theorem margins_preserved (c : Setup α σ d) (f : Filter α) :
    Preserved c fun (_ : List (State α σ d)) s => s.filter.clear = f where
  check _ _ same := same
  report _ s same := by
    refine State.updateBarrier_preserves (P := fun s => s.filter.clear = f) ?_ same
    intro s w _ same _ _
    exact same
  step _ s s' same step := by
    obtain ⟨dir, acc, e, e', moved, -, -, -, kept, rfl⟩ := advance_ok step
    obtain ⟨w, k, m, t, rfl⟩ := kept
    obtain ⟨w', y, completed⟩ := complete_eq _ c dir acc _
    rw [completed]
    simp only [State.completed, State.moveTo]
    split
    · exact same
    · exact same

/-- A run leaves the margins of the filter as they were. -/
theorem Engine.run_margins (e : Engine α σ d) (obs : Observer α d ω) (o : ω) :
    (e.run obs o).2.1.state.filter.clear = e.state.filter.clear := by
  rcases started : (startingProcedure e.setup).outcome e.opened with ⟨cause | _, first⟩
  · rw [filter_of_failed_start obs o started]
  · obtain ⟨reports, ending, last, follows⟩ := e.run_follows obs o started
    obtain ⟨o', course⟩ := follows.course
    obtain ⟨w, state⟩ := follows.state
    have beginning : (first.headed e.setup).filter.clear = e.state.filter.clear := by
      obtain ⟨w, headed⟩ := first.headed_eq e.setup
      have emptied := (startingProcedure_filter e.setup _).ok e.opened_filter started
      rw [headed, emptied]
      rfl
    rw [state]
    cases course.exit_holds (margins_preserved e.setup _) [] beginning with
    | spent same => exact same
    | decided same verdict => exact same
    | stopped same => exact same
    | failed same step =>
      obtain ⟨kept, -, -⟩ | ⟨dir, acc, e', e'', q, -, -, -, -, kept⟩ := advance_error step
      · obtain ⟨w, k, m, t, rfl⟩ := kept
        exact same
      · obtain ⟨w, k, m, t, rfl⟩ := kept
        simp only [State.moveTo]
        split
        · exact same
        · exact same

end Margins

section Rerun

variable {α σ ω : Type} [Scalar α] {d : Dims} [DenseSolver α] {ω₀ : Type}

/-- The next run of an engine on a repeatable problem, with the Hessian approximation and the memory
of the shifts put back, tells its observer what a run before it would have told. An exact Hessian
need not be put back. -/
theorem rerun_repeats {e : Engine α σ d} (repeatable : e.setup.problem.Repeatable)
    (obs₀ : Observer α d ω₀) (o₀ : ω₀) {k : Curvature α d} (like : e.state.curvature.Like k)
    (obs : Observer α d ω) (o : ω) :
    e.SameRun { (e.run obs₀ o₀).2.1 with state :=
      { (e.run obs₀ o₀).2.1.state with curvature := k, shifts := e.state.shifts } } obs o := by
  let left := (e.run obs₀ o₀).2.1.state
  let after : Engine α σ d :=
    ⟨e.setup, { left with curvature := k, shifts := e.state.shifts }⟩
  have same : e.opened.SameStart after.opened :=
    Engine.opened_sameStart (e.run_margins obs₀ o₀) like rfl
  have setup : after.setup = e.setup := rfl
  refine Engine.SameRun.of_repeatable repeatable setup same ?_ obs o
  intro f s start
  right
  -- the failed start has counted nothing and shifted nothing
  obtain ⟨w, opened⟩ := e.opened_eq
  have untouched : s.iter = 0 ∧ s.shifts = e.state.shifts := by
    have itself : e.opened.SameStart e.opened := ⟨rfl, .refl _, rfl, rfl, rfl, rfl, rfl⟩
    obtain ⟨f', t, -, failed⟩ :=
      (startingProcedure_alike repeatable.agrees itself).of_error start
    rw [opened] at failed
    cases failed with
    | refused => exact ⟨rfl, rfl⟩
    | unevaluated => exact ⟨rfl, rfl⟩
  obtain ⟨-, ⟨w', state⟩, -⟩ := Engine.run_of_failed_start obs₀ o₀ start
  obtain ⟨w'', opened'⟩ := after.opened_eq
  intro status
  have found : left = _ := state
  rw [opened']
  simp only [after, found, State.result, untouched.1, untouched.2]

end Rerun

open scoped Linear.Exact

theorem Ray.repeatable (limit : ℝ) : (Ray.problem limit).Repeatable where
  variableBounds := .of_pure _
  inequalityBounds := .of_pure _
  start := .of_written _ _
  objective _ _ := .of_written _ _
  gradient _ _ := .of_written _ _
  equalities _ _ := .of_written _ _
  inequalities _ _ := .of_written _ _
  equalityJacobian _ _ := .of_pure _
  inequalityJacobian _ _ := .of_pure _
  hessian _ _ _ _ _ := .of_pure _

/-- The ray once more, after a run that failed far away. -/
theorem ray_rerun_repeats :
    ((Ray.engine 10 1e-8).run Observer.silent ()).1.status = .errorInEvaluation ∧
      (Ray.engine 10 1e-8).SameRun { ((Ray.engine 10 1e-8).run Observer.silent ()).2.1 with
        state := { ((Ray.engine 10 1e-8).run Observer.silent ()).2.1.state with
          curvature := (Ray.engine 10 1e-8).state.curvature, shifts := .fresh } } stopping () := by
  obtain ⟨first, r₀, r₁, last, follows, -⟩ := Ray.failing_run Exact.exactSolver_exact
  refine ⟨follows.status_eq, ?_⟩
  exact rerun_repeats (Ray.repeatable 10) Observer.silent () (.refl _) stopping ()

namespace Edge

open Ray (line)
open Linear.Exact (exactSolver_exact)

/-- Minimize `-x` over the line from zero; the functions are known up to zero only. -/
noncomputable def problem : Problem ℝ Unit line :=
  { Ray.problem 0 with
    variableBounds := pure (.good (single (-1e20), single 1e20))
    start := pure (.good (single 0))
    objective := fun x _ =>
      pure ⟨some (-x.get ⟨0, Nat.one_pos⟩), decide (x.get ⟨0, Nat.one_pos⟩ ≤ 0)⟩ }

theorem repeatable : problem.Repeatable where
  __ := Ray.repeatable 0
  variableBounds := .of_pure _
  start := .of_written _ _
  objective _ _ := .of_written _ _

theorem absent_lower : isFiniteBound (-1e20 : ℝ) = false := by
  norm_num [isFiniteBound]

theorem absent_upper : isFiniteBound (1e20 : ℝ) = false := by
  norm_num [isFiniteBound]

noncomputable def bounds : Bounds ℝ line :=
  ⟨⟨single ⟨-1e20, false⟩, single ⟨1e20, false⟩⟩, ⟨noEntries, noEntries⟩, 0⟩

noncomputable def setup : Setup ℝ Unit line := ⟨problem, .default, bounds⟩

noncomputable def engine : Engine ℝ Unit line := ⟨setup, .initial .default true ⟨(), []⟩⟩

theorem bounds_of_raw (rule : Bounds.FixedRule ℝ) :
    Bounds.ofRaw rule #v[-1e20] #v[1e20] #v[] #v[] = .ok bounds := by
  have apart : rule.coincide (-1e20) 1e20 = false :=
    Bounds.FixedRule.coincide_of_absent (.inl absent_lower)
  have ordered : ¬ (1e20 : ℝ) < -1e20 := by norm_num
  rw [Bounds.ofRaw_single (Bounds.variableFault_eq_none_iff.mpr
    ⟨isUndefined_real _, isUndefined_real _, ordered, fun _ => apart⟩) apart]
  simp [Bounds.literal, Bound.of, absent_lower, absent_upper, bounds]

theorem created : (Engine.create problem .default).outcome ⟨(), []⟩ = (.ok engine, ⟨(), []⟩) := by
  have queried : (Bounds.ofProblem problem (.ofSettings .default)).run () = (.ok bounds, ()) := by
    rw [← bounds_of_raw (.ofSettings .default)]
    rfl
  have unmoved (factor : ℝ) : bounds.relax factor = bounds := by
    unfold Bounds.relax
    split
    · rfl
    · simp [bounds, Box.widened, Bound.moved]
  exact Engine.create_unmoved rfl queried rfl (unmoved _) rfl

/-- The state stands at zero and nothing has been counted in this run. -/
structure At (m : Newton.ShiftMemory ℝ) (s : State ℝ Unit line) : Prop where
  point : s.curr.x.point.get 0 = 0
  coherent : s.Coherent setup
  exact : s.curvature.isExact = true
  shifts : s.shifts = m
  iter : s.iter = 0

variable {m : Newton.ShiftMemory ℝ} {s : State ℝ Unit line}

/-- The gradient keeps the overall error at one or more. -/
theorem overall_large (it : Iterate ℝ line) {e : Evaluation ℝ line} (grad : e.grad.get 0 = -1)
    (mu pSmax : ℝ) : 1 ≤ (Residual.compute it e bounds mu pSmax).nlpOverall := by
  have slope : (Block.pull bounds.x (e.lagrangianGradient it.yc it.yd) it.x.multLo
      it.x.multHi).get 0 = -1 := by
    simp [Block.pull, bounds, pulled, Evaluation.lagrangianGradient, grad]
  have stationary := ((infNorm_le_iff (Block.pull bounds.x (e.lagrangianGradient it.yc it.yd)
    it.x.multLo it.x.multHi) _).mp le_rfl).2 0
  rw [slope, abs_neg, abs_one] at stationary
  have unscaled (total : ℝ) : multiplierScale pSmax total (line.m + bounds.count) = 1 := rfl
  simp only [Residual.compute, Residual.withBarrier, unscaled, div_one, maxNum_real]
  exact le_max_of_le_left (le_max_of_le_left (le_max_of_le_left stationary))

theorem grad_of_answers {e : Evaluation ℝ line} {v : Vector ℝ 1} (h : e.AnswersAt problem v) :
    e.grad.get 0 = -1 := by
  rw [h.grad.eq_of_written rfl]
  rfl

theorem unpushed (x : Vector ℝ 1) (kappa1 kappa2 : ℝ) :
    (bounds.x.pushInside kappa1 kappa2 x).get 0 = x.get 0 := by
  simp [Box.pushInside, pushInside, bounds]

theorem funcs_outcome (v : Vector ℝ 1) (e : Evaluation ℝ line) :
    ∃ e', (Evaluation.funcs problem v).outcome (e, ()) =
      (if v.get 0 ≤ 0 then .ok () else .error .objective, (e', ())) := by
  have verdict : ((problem.objective v true).run ()).1.ok = decide (v.get 0 ≤ 0) := rfl
  simp only [Evaluation.funcs, Step.outcome_bind, Evaluation.outcome_ask, allFinite_real,
    isFinite_real, verdict]
  by_cases within : v.get 0 ≤ 0
  · simp only [within]
    exact ⟨_, rfl⟩
  · simp only [within]
    exact ⟨_, rfl⟩

theorem succeedsAt {v : Vector ℝ 1} (within : v.get 0 ≤ 0) : problem.SucceedsAt v where
  objective _ _ := decide_eq_true within
  equalities _ _ := rfl
  inequalities _ _ := rfl
  gradient _ _ := decide_eq_true within
  equalityJacobian _ _ := rfl
  inequalityJacobian _ _ := rfl

/-- A start succeeds and stands at zero. -/
theorem started (exact : s.curvature.isExact = true) (iter : s.iter = 0) :
    ∃ first, (startingProcedure setup).outcome s = (.ok (), first) ∧ At s.shifts first := by
  have still := unpushed #v[0] setup.settings.kappa1 setup.settings.kappa2
  obtain ⟨first, ok⟩ := startingProcedure_succeeds (c := setup) (fun _ => rfl)
    (fun x0 given => by
      obtain rfl : x0 = #v[0] := Answered.eq_of_written rfl ⟨_, given⟩
      exact succeedsAt (still.trans_le le_rfl)) s
  have coherent := State.Coherent.of_start ok
  obtain ⟨x0, e, y, w, given, -, rfl⟩ := startingProcedure_ok ok
  obtain rfl : x0 = #v[0] := Answered.eq_of_written rfl ⟨_, given⟩
  exact ⟨_, ok, still, coherent, exact, rfl, iter⟩

/-- Whatever has helped before, the first shift is positive. -/
theorem firstShift_pos (m : Newton.ShiftMemory ℝ) :
    0 < (Newton.Regularization.ofSettings .default).firstShift m := by
  simp only [Newton.Regularization.firstShift, equals_real, maxNum_real]
  split
  · norm_num [Newton.Regularization.ofSettings, InteriorSettings.default]
  · refine lt_max_of_lt_left ?_
    norm_num [Newton.Regularization.ofSettings, Newton.Regularization.default]

/-- No bound shortens a step. -/
theorem full_step (it : Iterate ℝ line) (dir : Direction ℝ line) (tau : ℝ) :
    it.maxPrimalStep dir bounds tau = 1 := by
  have unbounded {n : Nat} (v dv : Vector ℝ n) (sign alpha : ℝ) {b : Vector (Bound ℝ) n}
      (free : ∀ i, (b.get i).present = false) :
      fractionToBoundary v.toList dv.toList sign (b.toList.map (·.present)) tau alpha = alpha := by
    rw [fractionToBoundary, masked_zip_toList]
    simp [free]
  have lower (i : Fin 1) : (bounds.x.lower.get i).present = false := by
    rw [Subsingleton.elim i 0]
    rfl
  have upper (i : Fin 1) : (bounds.x.upper.get i).present = false := by
    rw [Subsingleton.elim i 0]
    rfl
  simp only [Iterate.maxPrimalStep, Box.hasLower, Box.hasUpper]
  rw [unbounded _ _ _ _ (fun i => i.elim0), unbounded _ _ _ _ (fun i => i.elim0),
    unbounded _ _ _ _ upper, unbounded _ _ _ _ lower]

namespace At

/-- The first check goes on. -/
theorem undecided (h : At m s) : s.checked.1 = none := by
  have large : 1 ≤ s.resid.nlpOverall := by
    rw [h.coherent.resid]
    exact overall_large _ (grad_of_answers h.coherent.eval) _ _
  have tolerances : ¬s.resid.nlpOverall ≤ 1e-8 ∧ ¬s.resid.nlpOverall ≤ 1e-6 := by
    constructor <;> linarith
  refine h.coherent.undecided tolerances.1 tolerances.2 (lt_irrefl 0) ?_
  rw [h.iter]
  exact Nat.succ_pos _

/-- The report is made at the same place, whatever its barrier parameter. -/
theorem reported (h : At m s) : At m (s.reported setup) := by
  let Still (s' : State ℝ Unit line) : Prop :=
    s'.curr = s.curr ∧ s'.curvature = s.curvature ∧ s'.shifts = s.shifts ∧ s'.iter = s.iter
  obtain ⟨curr, curvature, shifts, iter⟩ : Still (s.reported setup) :=
    State.updateBarrier_preserves (P := Still) (fun _ _ _ still _ _ => still) ⟨rfl, rfl, rfl, rfl⟩
  refine ⟨?_, h.coherent.reported, ?_, shifts.trans h.shifts, iter.trans h.iter⟩
  · rw [curr]
    exact h.point
  · rw [curvature]
    exact h.exact

/-- Refreshing the Hessian finds no curvature. -/
theorem refreshed (h : At m s) :
    ∃ s', (refreshCurvature setup).outcome s = (.ok (), s') ∧ At m s' ∧
      s'.curvature = .exact #v[#v[0]] :=
  ⟨_, refreshCurvature_of_answer h.exact rfl (allFinite_real _),
    ⟨h.point, ⟨h.coherent.eval, h.coherent.resid, h.coherent.tau, h.coherent.termination⟩, rfl,
      h.shifts, h.iter⟩, rfl⟩

/-- The data of the Newton system: neither curvature nor barrier terms. -/
theorem newtonData (h : At m s) (flat : s.curvature = .exact #v[#v[0]]) :
    (s.newtonData setup).hess.entry 0 0 = 0 ∧ (s.newtonData setup).sigmaX.get 0 = 0 ∧
      (s.newtonData setup).rhsX.get 0 = 1 := by
  have grad := grad_of_answers h.coherent.eval
  refine ⟨?_, ?_, ?_⟩
  · simp only [State.newtonData, flat]
    rfl
  · simp [State.newtonData, Block.diagonal, setup, bounds]
  · simp [State.newtonData, barrierGradients, Block.barrierPull, Block.pull, pulled, setup, bounds,
      Evaluation.lagrangianGradient, grad]

/-- The system is singular and solved with the first shift. -/
theorem newton_solved (h : At m s) (flat : s.curvature = .exact #v[#v[0]])
    (r : Newton.Regularization ℝ) (positive : 0 < r.firstShift m) :
    ∃ sol, (Newton.solve r m (s.newtonData setup)).result = .ok sol ∧ 0 < sol.dx.get 0 ∧
      (Newton.solve r m (s.newtonData setup)).memory = m.bumped (r.firstShift m) := by
  obtain ⟨hess, sigma, rhs⟩ := h.newtonData flat
  set data := s.newtonData setup
  have pivot (shift : ℝ) : (data.matrix shift 0).entry 0 0 = shift := by
    have entry := congrFun (congrFun (data.matrix_eq_blocks shift 0) (.inl (.inl 0)))
      (.inl (.inl 0))
    refine entry.trans ?_
    simp [Newton.Data.blocks, Newton.Data.primalBlock, hess, sigma]
  have unraised : (Newton.unraised r data).2 = Newton.factor (data.matrix 0 0) := by
    rw [Newton.unraised_eq, Newton.Data.matrix_of_unconstrained]
  have symmetric : data.hess.Symmetric := by
    intro i j
    rw [Subsingleton.elim i j]
  have unfit : (Newton.unraised r data).2.inertia ≠ Newton.targetInertia line := by
    rw [unraised]
    intro fits
    have nonzero := (Newton.inertia_of_regular (congrArg Newton.Inertia.zero fits)).1 0
    rw [(Newton.factor_decomposes exactSolver_exact
      (Newton.Data.matrix_symmetric symmetric 0 0)).value_of_single, Newton.congruence,
      Dense.entry_ofFn, pivot, zero_mul] at nonzero
    exact nonzero rfl
  have fits : (Newton.factor (data.matrix (r.firstShift m) (Newton.unraised r data).1)).inertia =
      Newton.targetInertia line := by
    rw [Newton.Data.matrix_of_unconstrained]
    refine Newton.factor_single exactSolver_exact ?_
    rw [pivot]
    exact positive
  obtain ⟨sol, shift, solved, memory⟩ := Newton.solve_of_first_shift r m unfit fits
  obtain ⟨rows, -⟩ := (Newton.solve_iff exactSolver_exact symmetric solved _ _).mpr ⟨rfl, rfl⟩
  have row := ((data.primalRows_iff _ _ _ _ _).mp rows).1 0
  simp only [Finset.univ_unique, Finset.sum_singleton, Finset.univ_eq_empty, Finset.sum_empty,
    Fin.default_eq_zero, hess, sigma, rhs, shift, zero_mul, zero_add, add_zero] at row
  refine ⟨sol, solved, ?_, memory⟩
  exact pos_of_mul_pos_right (row.symm ▸ one_pos) positive.le

/-- The full step leads to where the objective is not known. -/
theorem failed (h : At m s) :
    ∃ s', (advance setup).outcome s = (.error (.evaluation .objective), s') ∧
      s'.curvature.isExact = true ∧ s'.shifts.primalBumps = m.primalBumps + 1 := by
  obtain ⟨s₁, refreshed, h₁, flat⟩ := h.refreshed
  obtain ⟨sol, solved, forward, memory⟩ := h₁.newton_solved flat (.ofSettings .default)
    (firstShift_pos m)
  rw [← h₁.shifts] at solved memory
  obtain ⟨s₂, searched, curvature, shifts⟩ := searchDirection_of_solved refreshed solved
  have point : s₂.curr.x.point.get 0 = 0 := by
    obtain ⟨w, k, m, t, rfl⟩ := (searchDirection_ok searched).1
    exact h.point
  replace forward : 0 < (Direction.ofNewton sol s₁.curr setup.bounds s₁.mu).x.point.get 0 := forward
  generalize Direction.ofNewton sol s₁.curr setup.bounds s₁.mu = dir at searched forward
  have beyond : ¬ (s₂.curr.trial dir bounds 1).x.point.get 0 ≤ 0 := by
    simp only [Iterate.trial, Block.moved, Vector.get_ofFn, point, zero_add, one_mul]
    exact not_le.mpr forward
  obtain ⟨e, evaluated⟩ := funcs_outcome (s₂.curr.trial dir bounds 1).x.point s₂.trialEval
  rw [if_neg beyond] at evaluated
  have tried : (measureTrial setup s₂ dir 1).outcome (s₂.trialEval, s₂.world) =
      (.error (.evaluation .objective), (e, { s₂.world with problem := () })) := by
    rw [measureTrial, Step.outcome_bind_error]
    exact .inl (Step.outcome_within_error.mpr ⟨.objective, _, evaluated, rfl, rfl⟩)
  refine ⟨{ s₂ with world := { s₂.world with problem := () }, trialEval := e }, ?_, ?_, ?_⟩
  · have full : s₂.curr.maxPrimalStep dir setup.bounds s₂.tau = 1 := full_step _ _ _
    rw [advance, Step.outcome_bind, searched]
    dsimp only
    rw [Step.outcome_get_bind, full, Step.outcome_bind, lineSearch_of_failed_first tried]
  · change s₂.curvature.isExact = true
    rw [curvature, flat]
    rfl
  · change s₂.shifts.primalBumps = m.primalBumps + 1
    rw [shifts]
    refine (congrArg Newton.ShiftMemory.primalBumps memory).trans ?_
    rw [h₁.shifts]
    rfl

end At

/-- A run counts one more shifted solve, whatever was counted before it. -/
theorem run_counts {e : Engine ℝ Unit line} (same : e.setup = setup)
    (own : e.state.curvature.isExact = true) :
    (e.run Observer.silent ()).1.info.primalBumps = e.state.shifts.primalBumps + 1 ∧
      (e.run Observer.silent ()).2.1.state.shifts.primalBumps = e.state.shifts.primalBumps + 1 ∧
      (e.run Observer.silent ()).2.1.state.curvature.isExact = true := by
  obtain ⟨w, opened⟩ := e.opened_eq
  obtain ⟨first, started, h⟩ := started (s := e.opened) (by rw [opened]; exact own)
    (by rw [opened])
  have headed : At e.opened.shifts (first.headed setup) := by
    obtain ⟨w, headed⟩ := first.headed_eq setup
    rw [headed]
    exact ⟨h.point, ⟨h.coherent.eval, h.coherent.resid, h.coherent.tau, h.coherent.termination⟩,
      h.exact, h.shifts, h.iter⟩
  obtain ⟨last, step, exact_last, counted⟩ := headed.reported.failed
  have course : Course setup Observer.silent (setup.settings.maxIter + 1) (first.headed setup) ()
      _ _ last () := .failed headed.undecided rfl step
  rw [← same] at started course
  have follows := Engine.Follows.of_course started course
  obtain ⟨w', state⟩ := follows.state
  rw [opened] at counted
  refine ⟨?_, ?_, ?_⟩
  · rw [follows.result]
    exact counted
  · rw [state]
    exact counted
  · rw [state]
    exact exact_last

end Edge

/-- A run and its repetition on a flat objective: the shifted solves are counted on, and one is
reported where there are two. -/
theorem edge_counts_on :
    (Engine.create Edge.problem .default).outcome ⟨(), []⟩ = (.ok Edge.engine, ⟨(), []⟩) ∧
      Edge.problem.Repeatable ∧
      (Edge.engine.run Observer.silent ()).1.info.primalBumps = 1 ∧
      ((Edge.engine.run Observer.silent ()).2.1.run Observer.silent ()).1.info.primalBumps = 2 := by
  obtain ⟨first, left, own⟩ := Edge.run_counts (e := Edge.engine) rfl rfl
  obtain ⟨second, -⟩ := Edge.run_counts
    (e := (Edge.engine.run Observer.silent ()).2.1) rfl own
  refine ⟨Edge.created, Edge.repeatable, first, ?_⟩
  rw [second, left]
  rfl

end SmoothOpt.Barrier
