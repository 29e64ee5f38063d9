import SmoothOpt.Proofs.Barrier.Rerun
import SmoothOpt.Proofs.Penalty.Announcement
import SmoothOpt.Proofs.Penalty.Course
import SmoothOpt.Proofs.Penalty.Stationarity
import SmoothOpt.Proofs.Penalty.Unconstrained

/-!
The first subproblem of a problem without general constraints.

Its engine starts from the user's point with the user's bounds and solves what agrees with the
user's problem. So the result is that of an engine created for the problem itself, whatever the
multipliers and the penalty parameter. One number tells them apart: where the functions cannot be
evaluated at the first point, the subproblem has no objective to show and reports zero, while the
engine of the problem shows what the failing callback has written.
-/
namespace SmoothOpt

open Scalar Linear Step

/-- An engine of the outer loop has a view of the validated bounds. -/
theorem Penalty.Engine.create_parts {α σ : Type} [Scalar α] {d : Dims} {p : Problem α σ d}
    {settings : PenaltySettings α} {w w' : World α σ} {e : Penalty.Engine α σ d}
    (created : (Penalty.Engine.create p settings).outcome w = (.ok e, w')) :
    e.setup = ⟨p, settings⟩ ∧ (Dims.validate d : Except (ProblemFault α) Unit) = .ok () ∧
      ∃ b inner, (Bounds.ofProblem p (.ofSettings settings.inner)).run w.problem = (.ok b, inner) ∧
        e.state.view = .ofBounds b := by
  rw [Penalty.Engine.create, outcome_ofOutcome] at created
  split at created
  · cases created
  rcases viewed : (View.create p settings.inner).run w.problem with ⟨fault | v, inner⟩
  · simp only [viewed] at created
    cases created
  · simp only [viewed] at created
    cases created
    obtain ⟨valid, b, queried, rfl⟩ := View.create_ok viewed
    exact ⟨rfl, valid, b, inner, queried, rfl⟩

/-- A positive penalty parameter, valid sizes and accepted bounds make an engine. -/
theorem Penalty.Engine.create_of_bounds {α σ : Type} [Scalar α] {d : Dims} {p : Problem α σ d}
    {settings : PenaltySettings α} {w w' : World α σ} {b : Bounds α d}
    (positive : ¬(settings.rho0 ≤ 0 ∨ (!isFinite settings.rho0) = true))
    (valid : (Dims.validate d : Except (ProblemFault α) Unit) = .ok ())
    (queried : (Bounds.ofProblem p (.ofSettings settings.inner)).run w.problem =
      (.ok b, w'.problem)) (same : w'.log = w.log) :
    (Penalty.Engine.create p settings).outcome w =
      (.ok ⟨⟨p, settings⟩, .initial settings (.ofBounds b) w'⟩, w') := by
  obtain ⟨inner, log⟩ := w'
  rw [Penalty.Engine.create, outcome_ofOutcome, if_neg positive]
  simp only [View.create_of_bounds valid queried]
  cases same
  rfl

namespace Penalty

section First

variable {α σ ω : Type} [Scalar α] {d : Dims} [DenseSolver α] {c : Setup α σ d}

/-- Runs do not move the box. -/
theorem Engine.Reaches.box {e e' : Engine α σ d} (runs : e.Reaches e') :
    e'.state.view.box = e.state.view.box := by
  induction runs with
  | refl => rfl
  | @run e' before ω obs o ih =>
    obtain ⟨reports, status, last, w, follows, left⟩ := e'.run_leaves obs o
    obtain ⟨n, opened⟩ := e'.opened_eq
    have kept := follows.path.box
    rw [opened] at kept
    rw [left]
    exact kept.trans ih

/-- If the observer lets the first pass go on, the first subproblem is that of its report. -/
theorem Course.solves_head {obs : Observer α d ω} {left : Nat} {s last : State α σ d} {o o' : ω}
    {reports : List (State α σ d)} {ending : Except (Failure α) Status}
    (course : Course c obs left s o reports ending last o') (budget : left ≠ 0)
    (going : (obs.onIteration (s.recordIteration c).info o).1 = false) :
    (solves c (Barrier.endingStatus ending) reports).head? =
      innerResult c (s.recordIteration c) := by
  cases course with
  | spent => exact absurd rfl budget
  | stopped answer =>
    rw [answer] at going
    cases going
  | @failed left s t o o' f answer step =>
    have unstopped : Barrier.statusOf f ≠ .userStopped := by
      cases f <;> nofun
    rw [Barrier.endingStatus, solves_singleton unstopped, Option.head?_toList]
  | decided answer step =>
    obtain ⟨-, unstopped, -⟩ := major_decided step
    rw [Barrier.endingStatus, solves_singleton unstopped, Option.head?_toList]
  | stepped answer step rest =>
    obtain ⟨res, u, took, -, -⟩ := major_next step
    rw [solves_cons took.found rest.reports_ne_nil, List.head?_cons, took.found]

/-- The first subproblem that is solved is that of the first report. -/
theorem Course.first_solve {obs : Observer α d ω} {left : Nat} {s last : State α σ d} {o o' : ω}
    {reports : List (State α σ d)} {ending : Except (Failure α) Status}
    (course : Course c obs left s o reports ending last o') {res : SolveResult α (boxed d)}
    (first : (solves c (Barrier.endingStatus ending) reports).head? = some res) :
    innerResult c (s.recordIteration c) = some res := by
  by_cases live : left ≠ 0 ∧ (obs.onIteration (s.recordIteration c).info o).1 = false
  · rw [← course.solves_head live.1 live.2, first]
  · cases course with
    | spent => simp [solves] at first
    | stopped => simp [solves, Barrier.endingStatus] at first
    | failed answer | decided answer | stepped answer =>
      exact absurd ⟨Nat.succ_ne_zero _, congrArg Prod.fst answer⟩ live

omit [DenseSolver α] in
/-- A start that succeeds stands at the user's point. -/
theorem prepare_point {s t : State α σ d} {verdict : Option Status}
    (start : (prepare c).outcome s = (.ok verdict, t)) :
    ((s.view.userStart c.problem s.z).run s.world.problem).1 = (true, t.z) := by
  rw [outcome_prepare] at start
  dsimp only at start
  split at start
  · rename_i ok
    obtain ⟨w, f, p, feas, optim, k, rfl⟩ := settle_keeps start
    exact Prod.ext ok rfl
  · cases start

/-- In exact arithmetic a start succeeds from a point where the callbacks do. -/
theorem settle_succeeds {σ : Type} {d : Dims} {c : Setup ℝ σ d} {s : State ℝ σ d}
    (succeeds : c.problem.SucceedsAt (variablePart s.z)) :
    ∃ verdict t, (settle c).outcome s = (.ok verdict, t) := by
  rcases settled : (settle c).outcome s with ⟨f | verdict, t⟩
  · simp only [settle, outcome_bind_error, outcome_modify_bind, outcome_get_bind, outcome_set_bind,
      outcome_pure, Prod.mk.injEq, reduceCtorEq, false_and, and_false, exists_false,
      or_false] at settled
    obtain failed | ⟨_, s₁, objective, failed⟩ := settled
    · rw [outcome_evaluateObjective] at failed
      simp only [succeeds.objective, isFinite_real] at failed
      cases failed
    · obtain ⟨w, f, rfl, -⟩ := evaluateObjective_ok objective
      obtain ⟨⟨e, w'⟩, evaluated⟩ := Evaluation.all_succeeds succeeds (.blank, w.problem)
      have ran : (View.evaluateAt c.problem s.z true).run w.problem = _ :=
        evaluateAt_of_outcome evaluated
      have measured : (s.view.residuals c.problem s.z).run w.problem = (some (penaltyVector e s.z,
          s.view.projectedGradient s.z (s.view.meritGradient e (penaltyVector e s.z))), w') := by
        simp only [View.residuals, run_bind, ran]
        rfl
      simp only [outcome_evaluateErrors, measured, allFinite_real] at failed
      cases failed
  · exact ⟨verdict, t, rfl⟩

end First

section Transparency

variable {σ ω : Type} {n : ℕ} {p : Problem ℝ σ ⟨n, 0, 0⟩}

/-- Without inequalities the user's start is all of the starting point. -/
theorem userStart_whole (repeatable : p.Repeatable) {v : View ℝ ⟨n, 0, 0⟩} {z z' : Vector ℝ n}
    {w : σ} (start : ((v.userStart p z).run w).1 = (true, z')) (w' : σ) :
    (p.start.run w').1.SameOver (Vector.replicate n 0) (.good z') := by
  rw [userStart_steady repeatable v z w w', View.startOver] at start
  dsimp only at start
  split at start
  · cases start
  rename_i granted
  have ok : (p.start.run w').1.ok = true := by
    by_contra refused
    simp [refused] at granted
  split at start
  · cases start
  obtain ⟨-, rfl⟩ := Prod.mk.inj start
  refine ⟨ok.symm, fun _ => ?_⟩
  rw [repeatable.start.whole w' ok (Vector.replicate n 0) (variablePart (d := ⟨n, 0, 0⟩) z)]
  exact ext_get fun (i : Fin n) => get_append_castAdd (n := 0) _ _ i

/-- Without values the objective of a view fails and writes nothing. -/
theorem objective_view_silent {x : Vector ℝ n} (none : ¬∃ e, Evaluation.ValuesAt p x e)
    (v : View ℝ ⟨n, 0, 0⟩) (newX : Bool) (w : σ) :
    ∃ w', ((v.problem p).objective x newX).run w = (.silent false, w') := by
  rcases evaluated : (Evaluation.funcs p x).outcome (.blank, w) with ⟨what | _, e, w'⟩
  · exact ⟨w', objective_view_error evaluated newX⟩
  · exact absurd ⟨e, Evaluation.funcs_ok evaluated⟩ none

/-- What two starts that fail alike stand for, one of the problem and one of its view: the same but
for the objective, which the view shows only where there are values. -/
theorem failed_starts_view {c : Barrier.Setup ℝ σ ⟨n, 0, 0⟩} (repeatable : c.problem.Repeatable)
    {v : View ℝ ⟨n, 0, 0⟩} (agrees : c.problem.Agrees (v.problem c.problem))
    {s t s' t' : Barrier.State ℝ σ ⟨n, 0, 0⟩} {f f' : Failure ℝ}
    (failed : Barrier.FailedStarts c (v.problem c.problem) s t f f' s' t')
    (same : s.SameResult t) (blank : s.eval.f = 0) :
    ((∃ e, Evaluation.ValuesAt c.problem (c.startPoint s.world.problem) e) → s'.SameResult t') ∧
      ((¬∃ e, Evaluation.ValuesAt c.problem (c.startPoint s.world.problem) e) → ∀ status,
        { t' with status := status }.result =
          { { s' with status := status }.result with obj := 0 }) := by
  cases failed with
  | refused fault u u' =>
    refine ⟨fun _ => same, fun _ status => (same status).trans ?_⟩
    simp only [Barrier.State.result, blank]
  | @unevaluated x m m' n₁ n₂ what what' e e' pushed failed failed' u u' =>
    rw [← pushed]
    refine ⟨fun values => ?_, fun none status => ?_⟩
    · obtain ⟨_, values⟩ := values
      obtain ⟨r, evaluated⟩ := Evaluation.funcs_of_values repeatable values (s.eval, m)
      exact same.placed x (agrees.failed_objective evaluated failed failed') u u'
    · obtain ⟨w, silent⟩ := objective_view_silent none v true m'
      have left := Evaluation.all_objective (v.problem c.problem) x t.eval m'
      rw [failed', silent] at left
      have zero : e'.f = 0 := left.trans (same.objective.trans blank)
      rw [Barrier.State.placed_result, Barrier.State.placed_result, same status, zero]

variable [DenseSolver ℝ]

/-- A new engine for a view, and one for the problem itself: the results are the same, but for the
objective where there are no values at the starting point. -/
theorem run_view (repeatable : p.Repeatable) {v : View ℝ ⟨n, 0, 0⟩}
    (start : ∀ w, (p.start.run w).1.SameOver (Vector.replicate n 0) (.good v.start))
    (settings : InteriorSettings ℝ) (b : Bounds ℝ ⟨n, 0, 0⟩) (exact : Bool) (w w' : World ℝ σ)
    (m : σ) :
    let direct : Barrier.Engine ℝ σ ⟨n, 0, 0⟩ := ⟨⟨p, settings, b⟩, .initial settings exact w⟩
    let inner : Barrier.Engine ℝ σ ⟨n, 0, 0⟩ :=
      ⟨⟨v.problem p, settings, b.told⟩, .initial settings exact w'⟩
    ((∃ e, Evaluation.ValuesAt p (direct.setup.startPoint m) e) →
        (inner.run Observer.silent ()).1 = (direct.run Observer.silent ()).1) ∧
      ((¬∃ e, Evaluation.ValuesAt p (direct.setup.startPoint m) e) →
        (inner.run Observer.silent ()).1 =
          { (direct.run Observer.silent ()).1 with obj := 0 }) := by
  intro direct inner
  -- the view tells absent bounds as infinite ones, so it is compared with an engine told the same
  let told : Barrier.Engine ℝ σ ⟨n, 0, 0⟩ := ⟨direct.setup.told, direct.state⟩
  have result : (told.run Observer.silent ()).1 = (direct.run Observer.silent ()).1 :=
    Barrier.Engine.run_told direct.setup direct.state Observer.silent ()
  rw [← result]
  have agrees : told.setup.problem.Agrees (v.problem p) := view_agrees repeatable start
  have replaced : inner.setup = told.setup.solving (v.problem p) := rfl
  have same : told.opened.SameStart inner.opened :=
    Barrier.Engine.opened_sameStart rfl (.refl _) rfl
  have point (o : σ) : told.setup.startPoint o = direct.setup.startPoint m := by
    have given : (told.setup.problem.start.run o).1 = (direct.setup.problem.start.run m).1 :=
      repeatable.start.steady o m
    rw [Barrier.Setup.startPoint, given]
    exact Box.pushInside_told ..
  rcases started : (Barrier.startingProcedure told.setup).outcome told.opened with ⟨f | _, s⟩
  · -- a failed start ends both runs, and what was written to the objective is all that can differ
    obtain ⟨f', t, started', failed⟩ := Barrier.Engine.failedStarts agrees replaced same started
    obtain ⟨ended, -, -⟩ := Barrier.Engine.run_of_failed_start Observer.silent () started
    obtain ⟨ended', -, -⟩ := Barrier.Engine.run_of_failed_start Observer.silent () started'
    obtain ⟨o, opened⟩ := told.opened_eq
    obtain ⟨o', opened'⟩ := inner.opened_eq
    have fresh : told.opened.SameResult inner.opened ∧ told.opened.eval.f = 0 := by
      rw [opened, opened']
      exact ⟨fun _ => rfl, rfl⟩
    obtain ⟨known, unknown⟩ := failed_starts_view repeatable agrees failed fresh.1 fresh.2
    rw [point] at known unknown
    rw [ended, ended', failed.startStatus_eq]
    exact ⟨fun values => known values _, fun none => unknown none _⟩
  · have runs := Barrier.Engine.SameRun.of_start agrees replaced same started Observer.silent ()
    obtain ⟨x0, e, -, -, ⟨o, -, rfl⟩, answers, -⟩ := Barrier.startingProcedure_ok started
    have values : ∃ e, Evaluation.ValuesAt p (direct.setup.startPoint m) e := by
      rw [← point o]
      exact ⟨e, answers.toValuesAt⟩
    exact ⟨fun _ => runs.result, fun none => absurd values none⟩

/-- A subproblem from the user's point, with the user's bounds, gives what an engine created for the
problem itself gives. -/
theorem solved_view (repeatable : p.Repeatable) {settings : PenaltySettings ℝ}
    {s : State ℝ σ ⟨n, 0, 0⟩}
    (start : ∀ w, (p.start.run w).1.SameOver (Vector.replicate n 0) (.good s.view.start))
    {b : Bounds ℝ ⟨n, 0, 0⟩} (box : s.view.box = b.x)
    (apart : b.x.Apart (.ofSettings settings.inner)) (unmoved : b.relaxedFixed = 0) {w w' : σ}
    (queried : (Bounds.ofProblem p (.ofSettings settings.inner)).run w = (.ok b, w'))
    {res : SolveResult ℝ (boxed ⟨n, 0, 0⟩)} (solved : innerResult ⟨p, settings⟩ s = some res)
    (u : World ℝ σ) :
    ∃ direct u', (Barrier.Engine.create p settings.inner).outcome u = (.ok direct, u') ∧
      ((∃ e, Evaluation.ValuesAt p (direct.setup.startPoint u.problem) e) →
        res = (direct.run Observer.silent ()).1) ∧
      ((¬∃ e, Evaluation.ValuesAt p (direct.setup.startPoint u.problem) e) →
        res = { (direct.run Observer.silent ()).1 with obj := 0 }) := by
  rw [innerResult] at solved
  rcases created : (Barrier.Engine.create (s.view.problem p) settings.inner).outcome s.world with
    ⟨cause | engine, n₁⟩
  · rw [created] at solved
    cases solved
  rw [created] at solved
  obtain ⟨valid, b', exact, n₂, queried', chosen, rfl⟩ := Barrier.Engine.create_parts created
  rw [View.queried p (box ▸ apart)] at queried'
  obtain rfl := Except.ok.inj (congrArg Prod.fst queried')
  have again : ((Bounds.ofProblem p (.ofSettings settings.inner)).run u.problem).1 = .ok b :=
    (Bounds.ofProblem_steady repeatable _ w u.problem).trans (congrArg Prod.fst queried)
  obtain ⟨u', direct⟩ := Barrier.Engine.create_of_bounds valid (Prod.ext again rfl) chosen
  refine ⟨_, u', direct, ?_⟩
  obtain rfl := Option.some.inj solved
  rw [View.bounds_eq box unmoved]
  exact run_view repeatable start settings.inner _ exact u' n₁ u.problem

/-- The first subproblem a run solves, on a repeatable problem without general constraints and
without nearly fixed variables: its result is that of an engine created for the problem itself at
any time. Only where there are no values at the starting point is the objective zero instead. -/
theorem first_solve_transparent (repeatable : p.Repeatable) {settings : PenaltySettings ℝ}
    (unfixed : p.Unfixed (.ofSettings settings.inner)) {w w' : World ℝ σ}
    {e₀ e : Engine ℝ σ ⟨n, 0, 0⟩} (created : (Engine.create p settings).outcome w = (.ok e₀, w'))
    (runs : e₀.Reaches e) {obs : Observer ℝ ⟨n, 0, 0⟩ ω} {o : ω}
    {reports : List (State ℝ σ ⟨n, 0, 0⟩)} {status : Status} {last : State ℝ σ ⟨n, 0, 0⟩}
    (follows : e.Follows obs o reports status last) {res : SolveResult ℝ (boxed ⟨n, 0, 0⟩)}
    (first : (solves e.setup status reports).head? = some res) (u : World ℝ σ) :
    ∃ direct u', (Barrier.Engine.create p settings.inner).outcome u = (.ok direct, u') ∧
      ((∃ e, Evaluation.ValuesAt p (direct.setup.startPoint u.problem) e) →
        res = (direct.run Observer.silent ()).1) ∧
      ((¬∃ e, Evaluation.ValuesAt p (direct.setup.startPoint u.problem) e) →
        res = { (direct.run Observer.silent ()).1 with obj := 0 }) := by
  obtain ⟨setup₀, -, b, inner, queried, viewed⟩ := Engine.create_parts created
  obtain ⟨apart, unmoved⟩ := unfixed.queried queried
  have box : e.state.view.box = b.x := by
    rw [runs.box, viewed]
    exact View.ofBounds_box b
  have setup : e.setup = ⟨p, settings⟩ := runs.setup_eq.trans setup₀
  cases follows.path with
  | startFailed | startDecided => simp [solves] at first
  | @looped begun last reports ending o' start course =>
    -- the first report stands at the user's point, with the box of the creation
    have solved := course.first_solve first
    obtain ⟨ready, -⟩ := prepare_ok start
    have point := prepare_point start
    have kept := (prepare_keeps start).box
    obtain ⟨w₁, opened⟩ := e.opened_eq
    rw [opened] at kept
    rw [setup, ← ready.published.start] at point
    rw [← begun.recordIteration_view e.setup] at point kept
    rw [setup] at solved kept point
    exact solved_view repeatable (userStart_whole repeatable point) (kept.trans box) apart unmoved
      queried solved u

end Transparency

namespace Threshold

open Barrier.Ray (line bounds bounds_lower bounds_upper bounds_of_raw)

/-- Minimize `-x` over `x ≥ 0` from zero. The objective is always written, and refused beyond
`limit`. -/
noncomputable def problem (limit : ℝ) : Problem ℝ Unit line :=
  { Barrier.Ray.problem limit with
    start := pure (.good (single 0))
    objective := fun x _ =>
      pure ⟨some (-x.get ⟨0, Nat.one_pos⟩), decide (x.get ⟨0, Nat.one_pos⟩ ≤ limit)⟩
    gradient := fun _ _ => pure (.good (single (-1))) }

noncomputable def settings : PenaltySettings ℝ :=
  { (PenaltySettings.default : PenaltySettings ℝ) with
    inner := { (PenaltySettings.default : PenaltySettings ℝ).inner with boundRelaxFactor := 0 } }

noncomputable def setup (limit : ℝ) : Setup ℝ Unit line := ⟨problem limit, settings⟩

noncomputable def engine (limit : ℝ) : Engine ℝ Unit line :=
  ⟨setup limit, .initial settings (.ofBounds bounds) ⟨(), []⟩⟩

noncomputable def direct (limit : ℝ) (w : World ℝ Unit) : Barrier.Engine ℝ Unit line :=
  ⟨⟨problem limit, settings.inner, bounds⟩, .initial settings.inner true w⟩

variable {limit : ℝ}

theorem repeatable (limit : ℝ) : (problem limit).Repeatable :=
  { Barrier.Ray.repeatable limit with
    start := .of_written _ _
    objective := fun _ _ => .of_written _ _
    gradient := fun _ _ => .of_written _ _ }

theorem unfixed (limit : ℝ) (rule : Bounds.FixedRule ℝ) : (problem limit).Unfixed rule := by
  intro w i
  have absent : isFiniteBound (1e20 : ℝ) = false := by
    norm_num [isFiniteBound]
  have apart : rule.coincide 0 1e20 = false := by
    simp [Bounds.FixedRule.coincide, absent]
  rw [Subsingleton.elim i 0]
  exact apart

theorem queried (limit : ℝ) (rule : Bounds.FixedRule ℝ) (w : Unit) :
    (Bounds.ofProblem (problem limit) rule).run w = (.ok bounds, w) := by
  rw [← bounds_of_raw rule]
  rfl

theorem created (limit : ℝ) :
    (Engine.create (problem limit) settings).outcome ⟨(), []⟩ = (.ok (engine limit), ⟨(), []⟩) := by
  have positive : ¬(settings.rho0 ≤ 0 ∨ (!isFinite settings.rho0) = true) := by
    norm_num [settings, PenaltySettings.default]
  exact Engine.create_of_bounds positive rfl (queried limit (.ofSettings settings.inner) ()) rfl

theorem direct_created (limit : ℝ) : ∃ w,
    (Barrier.Engine.create (problem limit) settings.inner).outcome ⟨(), []⟩ =
      (.ok (direct limit w), w) := by
  have valid : (Dims.validate line : Except (ProblemFault ℝ) Unit) = .ok () := rfl
  have own : Barrier.Engine.useExact (problem limit) settings.inner = .ok true := rfl
  have unmoved : bounds.relax settings.inner.boundRelaxFactor = bounds := by
    simp [Bounds.relax, settings]
  have made := Barrier.Engine.create_of_bounds (w := (⟨(), []⟩ : World ℝ Unit)) valid
    (queried limit (.ofSettings settings.inner) ()) own
  rwa [unmoved] at made

theorem succeedsAt {x : Vector ℝ 1} (within : x.get 0 ≤ limit) : (problem limit).SucceedsAt x where
  objective _ _ := decide_eq_true within
  equalities _ _ := rfl
  inequalities _ _ := rfl
  gradient _ _ := rfl
  equalityJacobian _ _ := rfl
  inequalityJacobian _ _ := rfl

/-- At zero the projected gradient has a unit entry. -/
theorem one_le_errOptim {v : View ℝ line} (box : v.box = bounds.x) {s : State ℝ Unit line}
    (z : s.z = #v[0]) (measured : s.MeasuredWith (setup limit) v) : 1 ≤ s.errOptim := by
  obtain ⟨e, answers, -, -, optim⟩ := measured
  have slope : e.grad.get (0 : Fin 1) = -1 := by
    rw [answers.grad.eq_of_written rfl]
    rfl
  have entry : (v.projectedGradient s.z (v.meritGradient e s.penalty)).get (0 : Fin 1) = -1 := by
    have lower : v.box.lower.get (0 : Fin 1) = ⟨0, true⟩ := box ▸ bounds_lower
    have upper : (v.box.upper.get (0 : Fin 1)).present = false := box ▸ bounds_upper
    rw [meritGradient_eq, View.projectedGradient, Vector.get_ofFn, clampTo, slope, lower, upper, z]
    norm_num [Vector.get]
  have below := ((infNorm_le_iff (v.projectedGradient s.z (v.meritGradient e s.penalty)) _).mp
    optim.ge).2 (0 : Fin 1)
  rwa [entry, abs_neg, abs_one] at below

/-- With a unit optimality error no test of the parameters stops a run at its start. -/
theorem check_undecided (feas : ℝ) {optim : ℝ} (large : 1 ≤ optim) :
    ((Termination.ofPenalty settings).check [feas, optim] 0).1 = none := by
  obtain ⟨tolerance, acceptable⟩ : ¬optim ≤ settings.tolerance ∧
      ¬optim ≤ settings.acceptableTolerance := by
    constructor <;> refine not_le.mpr (lt_of_lt_of_le ?_ large) <;>
      norm_num [settings, PenaltySettings.default]
  apply Termination.check_none
  · simp [Termination.allWithin, Termination.ofPenalty, tolerance]
  · exact Nat.succ_pos 999
  · simp [Termination.relativelySmall, Termination.ofPenalty]
  · simp [Termination.allWithin, Termination.ofPenalty, acceptable]

/-- A start from zero does not end a run. -/
theorem prepared (nonneg : 0 ≤ limit) : ∃ first,
    (prepare (setup limit)).outcome (engine limit).opened = (.ok none, first) ∧
      first.view.start = #v[0] ∧ first.view.box = bounds.x := by
  have point : (((engine limit).opened.view.userStart (problem limit) (engine limit).opened.z).run
      ()).1.2 = #v[0] := ext_get fun (i : Fin 1) => by
    rw [Subsingleton.elim i 0]
    exact get_append_castAdd _ _ (0 : Fin 1)
  have within : (variablePart (d := line) #v[(0 : ℝ)]).get (0 : Fin 1) ≤ limit := nonneg
  obtain ⟨verdict, first, settled⟩ := settle_succeeds (c := setup limit)
    (s := (engine limit).opened.placed (setup limit) #v[0]) (succeedsAt within)
  have start : (prepare (setup limit)).outcome (engine limit).opened = (.ok verdict, first) := by
    rw [← settled, ← point, outcome_prepare]
    rfl
  obtain ⟨s, w, evaluated, undecided, rfl⟩ := settle_ok settled
  have measured := evaluated.measured
  obtain ⟨_, _, _, _, _, rfl⟩ := evaluated.touched
  have large := one_le_errOptim (View.ofBounds_box bounds) rfl measured
  obtain rfl : verdict = none := undecided.trans (check_undecided _ large)
  exact ⟨_, start, rfl, View.ofBounds_box bounds⟩

/-- The bound pushes the start to `0.01`. -/
theorem startPoint_eq (limit : ℝ) (w : World ℝ Unit) (o : Unit) :
    ((direct limit w).setup.startPoint o).get 0 = 1 / 100 := by
  change (bounds.x.pushInside settings.inner.kappa1 settings.inner.kappa2 #v[0]).get 0 = _
  simp only [Box.pushInside, Vector.get_ofFn, bounds_lower, pushInside, bounds_upper]
  norm_num [settings, PenaltySettings.default, InteriorSettings.default, Vector.get]

/-- There are values at the starting point up to the limit, and none beyond it. -/
theorem values_iff (limit : ℝ) (w : World ℝ Unit) (o : Unit) :
    (∃ e, Evaluation.ValuesAt (problem limit) ((direct limit w).setup.startPoint o) e) ↔
      1 / 100 ≤ limit := by
  rw [← startPoint_eq limit w o]
  constructor
  · rintro ⟨e, values⟩
    obtain ⟨_, _, ok, -⟩ := values.f
    exact of_decide_eq_true ok
  · intro within
    obtain ⟨⟨e, o'⟩, evaluated⟩ := Evaluation.funcs_succeeds (succeedsAt within) (.blank, ())
    exact ⟨e, Evaluation.funcs_ok evaluated⟩

variable [DenseSolver ℝ]

/-- A run solves a first subproblem, from zero and with the bound. -/
theorem solves_first (nonneg : 0 ≤ limit) : ∃ reports status last res s,
    (engine limit).Follows Observer.silent () reports status last ∧
      (solves (setup limit) status reports).head? = some res ∧
      innerResult (setup limit) s = some res ∧ s.view.start = #v[0] ∧ s.view.box = bounds.x := by
  obtain ⟨first, start, point, box⟩ := prepared nonneg
  obtain ⟨reports, status, last, follows⟩ := (engine limit).run_follows Observer.silent ()
  rw [← first.recordIteration_view (setup limit)] at point box
  set s := first.recordIteration (setup limit)
  have apart : s.view.box.Apart (.ofSettings settings.inner) := by
    rw [box]
    exact ((unfixed limit _).queried (queried limit _ ())).1
  obtain ⟨w, found⟩ := innerResult_of_apart (c := setup limit) apart one_ne_zero
    (show _ = Except.ok true from rfl)
  refine ⟨reports, status, last, _, s, follows, ?_, found, point, box⟩
  cases follows.path with
  | startFailed other | startDecided other => cases other.symm.trans start
  | looped other course =>
    obtain rfl := congrArg Prod.snd (start.symm.trans other)
    exact (course.solves_head (Nat.succ_ne_zero 999) rfl).trans found

/-- A limit before the starting point ends the run there, with the refused objective. -/
theorem direct_objective (low : limit < 1 / 100) (w : World ℝ Unit) :
    ((direct limit w).run Observer.silent ()).1.obj = -(1 / 100) := by
  rcases started : (Barrier.startingProcedure (direct limit w).setup).outcome
    (direct limit w).opened with ⟨f | _, s⟩
  · obtain ⟨ended, -, -⟩ := Barrier.Engine.run_of_failed_start Observer.silent () started
    simp only [Barrier.startingProcedure, outcome_bind_error, outcome_modify_bind,
      outcome_modify, Prod.mk.injEq, reduceCtorEq, false_and, and_false, exists_false,
      or_false] at started
    obtain refused | ⟨x0, s₁, asked, failed⟩ := started
    · rw [Barrier.outcome_askStart] at refused
      simp only [allFinite_real] at refused
      cases refused
    · obtain ⟨⟨w₁, rfl⟩, given⟩ := Barrier.askStart_outcome asked
      obtain ⟨⟨o, -, rfl⟩, -⟩ := given x0 rfl
      obtain ⟨q, e, w₂, ran, -, rfl⟩ := Barrier.evaluating_error failed
      have written := Evaluation.all_objective (problem limit)
        ((direct limit w).setup.startPoint o) (direct limit w).opened.eval w₁.problem
      have left : e.f = -((direct limit w).setup.startPoint o).get 0 :=
        (congrArg (·.2.1.f) ran).symm.trans written
      rw [ended, ← startPoint_eq limit w o, ← left]
      rfl
  · obtain ⟨x0, e, -, -, ⟨o, -, rfl⟩, answers, -⟩ := Barrier.startingProcedure_ok started
    exact absurd ((values_iff limit w o).mp ⟨e, answers.toValuesAt⟩) (not_le.mpr low)

end Threshold

open scoped Linear.Exact

/-- Where the starting point has values, the first subproblem and the problem itself have one
result. -/
theorem threshold_first_solve_transparent : ∃ reports status last res w,
    (Threshold.engine 1).Follows Observer.silent () reports status last ∧
    (solves (Threshold.setup 1) status reports).head? = some res ∧
    (Barrier.Engine.create (Threshold.problem 1) Threshold.settings.inner).outcome ⟨(), []⟩ =
      (.ok (Threshold.direct 1 w), w) ∧
    res = ((Threshold.direct 1 w).run Observer.silent ()).1 := by
  obtain ⟨reports, status, last, res, -, follows, first, -⟩ := Threshold.solves_first zero_le_one
  obtain ⟨engine, w', created, known, -⟩ := first_solve_transparent (Threshold.repeatable 1)
    (Threshold.unfixed 1 _) (Threshold.created 1) .refl follows first ⟨(), []⟩
  obtain ⟨w, direct⟩ := Threshold.direct_created 1
  obtain ⟨found, -⟩ := Prod.mk.inj (created.symm.trans direct)
  obtain rfl := Except.ok.inj found
  have values := (Threshold.values_iff 1 w ()).mpr (by norm_num)
  exact ⟨reports, status, last, res, w, follows, first, direct, known values⟩

/-- A starting point that the objective refuses: the first subproblem reports a zero objective, the
problem itself what was written. -/
theorem threshold_objectives_differ : ∃ reports status last res w,
    (Engine.create (Threshold.problem 0) Threshold.settings).outcome ⟨(), []⟩ =
      (.ok (Threshold.engine 0), ⟨(), []⟩) ∧
    (Threshold.problem 0).Repeatable ∧
    (Threshold.problem 0).Unfixed (.ofSettings Threshold.settings.inner) ∧
    (Threshold.engine 0).Follows Observer.silent () reports status last ∧
    (solves (Threshold.setup 0) status reports).head? = some res ∧
    (Barrier.Engine.create (Threshold.problem 0) Threshold.settings.inner).outcome ⟨(), []⟩ =
      (.ok (Threshold.direct 0 w), w) ∧
    res.obj = 0 ∧ ((Threshold.direct 0 w).run Observer.silent ()).1.obj = -(1 / 100) := by
  obtain ⟨reports, status, last, res, s, follows, first, solved, start, box⟩ :=
    Threshold.solves_first (le_refl (0 : ℝ))
  obtain ⟨w, direct⟩ := Threshold.direct_created 0
  refine ⟨reports, status, last, res, w, Threshold.created 0, Threshold.repeatable 0,
    Threshold.unfixed 0 _, follows, first, direct, ?_,
    Threshold.direct_objective (by norm_num) w⟩
  have queried := Threshold.queried 0 (.ofSettings Threshold.settings.inner) ()
  obtain ⟨apart, unmoved⟩ := (Threshold.unfixed 0 _).queried queried
  have point (w : Unit) : ((Threshold.problem 0).start.run w).1.SameOver (Vector.replicate 1 0)
      (.good s.view.start) := by
    rw [start]
    exact ⟨rfl, fun _ => rfl⟩
  obtain ⟨engine, w', created, -, unknown⟩ := solved_view (Threshold.repeatable 0) point box apart
    unmoved queried solved ⟨(), []⟩
  obtain ⟨found, -⟩ := Prod.mk.inj (created.symm.trans direct)
  obtain rfl := Except.ok.inj found
  have refused : ¬(1 / 100 : ℝ) ≤ 0 := by norm_num
  rw [unknown (mt (Threshold.values_iff 0 w ()).mp refused)]

end Penalty

end SmoothOpt
