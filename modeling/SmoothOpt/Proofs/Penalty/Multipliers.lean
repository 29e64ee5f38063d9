import SmoothOpt.Proofs.Barrier.Positivity
import SmoothOpt.Proofs.Penalty.History
import SmoothOpt.Proofs.Penalty.Subproblem

/-!
The multipliers a run of the augmented Lagrangian method returns, and the errors they belong to.

The optimality error is computed with the estimate `λ + ρ p` of the view, and the result is built
from the same expression later. Between the two, a major iteration that goes on moves `λ` and `ρ`.
So at every exit but one the returned multipliers are those of the returned error. The exception is
an observer that stops at a report after the first: it leaves the error of the parameters before the
move and multipliers estimated with those after it.
-/
namespace SmoothOpt

open Scalar Linear

/-- An engine is refused for its problem or for its options. -/
theorem Barrier.Engine.create_error {α σ : Type} [Scalar α] {d : Dims} {p : Problem α σ d}
    {settings : InteriorSettings α} {w w' : World α σ} {f : Failure α}
    (h : (Barrier.Engine.create p settings).outcome w = (.error f, w')) :
    Barrier.statusOf f = .incompleteInit := by
  rw [Barrier.Engine.create, Step.outcome_ofOutcome] at h
  split at h
  · cases h
    rfl
  · rcases queried : (Bounds.ofProblem p (.ofSettings settings)).run w.problem with
      ⟨fault | b, inner⟩ <;> simp only [queried] at h
    · cases h
      rfl
    · split at h
      · rename_i refused
        cases h
        unfold Barrier.Engine.useExact at refused
        split at refused
        · cases refused
        · cases refused
        · split at refused
          · cases refused
          · cases refused
            rfl
      · cases h

namespace Penalty

section Course

variable {α σ ω : Type} [Scalar α] {d : Dims} {c : Setup α σ d} {s t : State α σ d}

/-- `‖z - P(z - g)‖∞` for the projection `P` into the box of the view and
`g = (∇f + Jcᵀ yc + Jdᵀ yd, -yd)`. -/
def View.optimality (v : View α d) (e : Evaluation α d) (z : Vector α (d.n + d.mIneq))
    (yc : Vector α d.mEq) (yd : Vector α d.mIneq) : α :=
  infNorm (v.projectedGradient z (e.lagrangianGradient yc yd ++ yd.map (-·))).toList

/-- The projection looks at the box only. -/
theorem View.optimality_of_box {v v' : View α d} (same : v'.box = v.box) (e : Evaluation α d)
    (z : Vector α (d.n + d.mIneq)) (yc : Vector α d.mEq) (yd : Vector α d.mIneq) :
    v'.optimality e z yc yd = v.optimality e z yc yd := by
  simp only [View.optimality, View.projectedGradient, same]

namespace State

theorem MeasuredWith.recordIteration {v : View α d} (measured : s.MeasuredWith c v) :
    (s.recordIteration c).MeasuredWith c v := by
  obtain ⟨w, recorded⟩ := s.recordIteration_eq c
  rw [recorded]
  exact measured

end State

/-- A start that succeeds has measured its point with the parameters it begins with, in the box it
was given. -/
theorem prepare_measured {verdict : Option Status} (h : (prepare c).outcome s = (.ok verdict, t)) :
    t.MeasuredWith c t.view ∧ t.view.box = s.view.box ∧
      (verdict = none → t.iter < t.termination.maxIter) ∧ verdict ≠ some .userStopped := by
  rw [outcome_prepare] at h
  dsimp only at h
  split at h
  · obtain ⟨s₁, w, evaluated, told, rfl⟩ := settle_ok h
    have early : verdict = none → s₁.iter < c.settings.maxIter := by
      rintro rfl
      exact Termination.lt_maxIter_of_check told.symm
    have unasked : verdict ≠ some .userStopped := by
      rintro rfl
      obtain ⟨⟨⟩, -⟩ | ⟨⟨⟩, -⟩ | ⟨⟨⟩⟩ | ⟨⟨⟩⟩ := Termination.check_cases told.symm
    have measured := evaluated.measured
    obtain ⟨_, _, _, _, _, rfl⟩ := evaluated.touched
    exact ⟨measured, rfl, early, unasked⟩
  · cases h

omit [Scalar α] in
/-- A run whose start fails ends with one of two statuses. -/
theorem State.startStopped_status (s : State α σ d) (c : Setup α σ d) (f : Failure α) :
    (s.startStopped c f).1 = .errorInEvaluation ∨ (s.startStopped c f).1 = .incompleteInit := by
  cases f with
  | evaluation => exact .inl rfl
  | invalidProblem | invalidOption | newton | lineSearch => exact .inr rfl

variable [DenseSolver α]

/-- A major iteration fails because its subproblem is refused or in an evaluation. -/
theorem major_failure {f : Failure α} (h : (major c).outcome s = (.error f, t)) :
    Barrier.statusOf f = .errorInEvaluation ∨
      Barrier.statusOf f = .incompleteInit ∧ innerResult c s = none := by
  obtain refused | ⟨res, w, -, objective | ⟨u, -, errors⟩⟩ := major_error_cases h
  · have missing := (solveSubproblem_error refused).1
    rw [solveSubproblem, Step.outcome_ofOutcome] at refused
    split at refused
    · rename_i created
      cases refused
      exact .inr ⟨Barrier.Engine.create_error created, missing⟩
    · cases refused
  · rw [outcome_evaluateObjective, Prod.mk.injEq] at objective
    obtain ⟨verdict, -⟩ := objective
    split at verdict
    · cases verdict
    · cases verdict
      exact .inl rfl
  · rw [outcome_evaluateErrors] at errors
    split at errors
    · cases errors
      exact .inl rfl
    · split at errors
      · cases errors
      · cases errors
        exact .inl rfl

/-- A major iteration that ends the run leaves errors of the parameters it was made with. -/
theorem major_decided_measured {status : Status}
    (h : (major c).outcome s = (.ok (some status), t)) : t.MeasuredWith c t.view := by
  obtain ⟨res, u, took, measured, ⟨-, -, -, rfl⟩ | ⟨-, left⟩⟩ := major_ok h
  · rw [took.view]
    exact measured
  · obtain rfl : t = u.check.2 := left
    have kept : u.check.2.view = s.view := took.view
    rw [kept]
    exact measured

/-- A major iteration that goes on has budget left. -/
theorem major_next_early (h : (major c).outcome s = (.ok none, t)) :
    t.iter < t.termination.maxIter := by
  obtain ⟨res, u, took, -, ⟨⟨⟩, -⟩ | ⟨undecided, left⟩⟩ := major_ok h
  have early : u.iter < u.termination.maxIter := Termination.lt_maxIter_of_check undecided.symm
  obtain ⟨count, counted⟩ := u.termination.check_state [u.errFeas, u.errOptim] u.iter
  have kept : u.check.2.termination.maxIter = u.termination.maxIter := by
    simp only [State.check]
    rw [counted]
  obtain rfl : t = u.check.2.publishStart.advanceParameters c := left
  exact kept ▸ early

variable {obs : Observer α d ω} {left : Nat} {last : State α σ d} {o o' : ω}
  {reports : List (State α σ d)} {ending : Except (Failure α) Status}

/-- Every report after the first shows errors of the parameters reported before it. -/
theorem Course.measured_chain (course : Course c obs left s o reports ending last o') :
    reports.IsChain fun r r' => r'.MeasuredWith c r.view := by
  refine course.isChain fun s t step => ?_
  obtain ⟨res, u, took, measured, rfl⟩ := major_next step
  exact State.MeasuredWith.recordIteration (s := u.publishStart.advanceParameters c) measured

/-- A loop that fails ends with one of two statuses. -/
theorem Course.failure {f : Failure α} (course : Course c obs left s o reports (.error f) last o') :
    Barrier.statusOf f = .errorInEvaluation ∨ Barrier.statusOf f = .incompleteInit := by
  generalize same : Except.error f = ending at course
  induction course with
  | spent | stopped | decided => cases same
  | failed answer step =>
    cases same
    exact (major_failure step).imp_right And.left
  | stepped answer step rest ih => exact ih same

/-- How a loop with budget left ends when it does not fail: a major iteration ends it and has just
measured its point, or the observer stops it at the last report. -/
theorem Course.regular {status : Status}
    (course : Course c obs left s o reports (.ok status) last o') :
    s.iter < s.termination.maxIter → s.termination.maxIter = s.iter + left →
      (status ≠ .userStopped ∧ last.MeasuredWith c last.view) ∨
        (status = .userStopped ∧ ∃ init, reports = init ++ [last]) := by
  generalize same : Except.ok status = ending at course
  induction course with
  | spent =>
    intro early budget
    omega
  | stopped =>
    intro _ _
    cases same
    exact .inr ⟨rfl, [], rfl⟩
  | failed => cases same
  | decided answer step =>
    intro _ _
    cases same
    exact .inl ⟨(major_decided step).2.1, major_decided_measured step⟩
  | @stepped left s t last o o' o'' reports ending answer step rest ih =>
    intro _ budget
    have early := major_next_early step
    obtain ⟨counted, limit⟩ := major_next_counts step
    obtain regular | ⟨stopped, init, rfl⟩ := ih same early (by omega)
    · exact .inl regular
    · exact .inr ⟨stopped, _ :: init, rfl⟩

end Course

section Returned

variable {σ ω : Type} {d : Dims} [DenseSolver ℝ]

/-- What the multipliers of a result have to do with its errors. `e` are the values at the final
point `z`, `v` has the box, and `reports` were made on the way. -/
structure ReturnedWith (c : Setup ℝ σ d) (reports : List (State ℝ σ d)) (v : View ℝ d)
    (z : Vector ℝ (d.n + d.mIneq)) (e : Evaluation ℝ d) (res : SolveResult ℝ d) : Prop where
  x : res.x = variablePart z
  answers : e.AnswersAt c.problem res.x
  feas : res.info.errFeas = infNorm (penaltyVector e z).toList
  /-- The optimality error is that of the returned multipliers, unless the observer stopped the run
  after its first report. -/
  matched : (res.status = .userStopped → res.info.iters = 0) →
    res.info.errOptim = v.optimality e z res.yc res.yd
  /-- There it is the error of the estimate `y` with the parameters of the report before, and the
  returned multipliers have moved on by `p / ρ + (ρ⁺ - ρ) p`. -/
  moved : res.status = .userStopped → 0 < res.info.iters → ∃ before ∈ reports, ∃ y,
    y = before.view.multiplierEstimate (penaltyVector e z) ∧
    res.info.errOptim = v.optimality e z (equalityPart y) (inequalityPart y) ∧
    ∀ k, (res.yc ++ res.yd).get k = y.get k + ((penaltyVector e z).get k / before.rho
      + (res.info.rho - before.rho) * (penaltyVector e z).get k)

variable {c : Setup ℝ σ d} {v : View ℝ d} {last : State ℝ σ d} {reports : List (State ℝ σ d)}
  {status : Status}

omit [DenseSolver ℝ] in
/-- Errors measured with the parameters the state still has are those of its multipliers. -/
theorem State.MeasuredWith.returned (measured : last.MeasuredWith c last.view)
    (box : last.view.box = v.box) (early : status = .userStopped → last.iter = 0) :
    ∃ e, ReturnedWith c reports v last.z e { last with status := status }.result := by
  obtain ⟨e, answers, penalty, feas, optim⟩ := measured
  refine ⟨e, rfl, answers, feas.trans (by rw [penalty]), ?_, ?_⟩
  · intro _
    rw [← View.optimality_of_box box]
    exact optim
  · intro stopped later
    exact absurd (early stopped) (Nat.pos_iff_ne_zero.mp later)

/-- The multipliers have moved since the errors were measured. -/
theorem State.MeasuredWith.returned_later {before : State ℝ σ d} (member : before ∈ reports)
    (published : before.Published) (passage : Passage c before last)
    (measured : last.MeasuredWith c before.view) (box : before.view.box = v.box) :
    ∃ e, ReturnedWith c reports v last.z e { last with status := .userStopped }.result := by
  obtain ⟨e, answers, penalty, feas, optim⟩ := measured
  refine ⟨e, rfl, answers, feas.trans (by rw [penalty]), ?_, ?_⟩
  · intro early
    have begun : last.iter = 0 := early rfl
    rw [passage.iter] at begun
    cases begun
  · intro _ _
    refine ⟨before, member, _, rfl, ?_, fun k => ?_⟩
    · rw [← View.optimality_of_box box, ← penalty]
      exact optim
    · have whole : (equalityPart (last.view.multiplierEstimate last.penalty) ++
          inequalityPart (last.view.multiplierEstimate last.penalty)).get k =
          (last.view.multiplierEstimate last.penalty).get k := by
        refine Fin.addCases (fun i => ?_) (fun j => ?_) k
        · rw [get_append_castAdd, equalityPart, get_firstPart]
        · rw [get_append_natAdd, inequalityPart, get_lastPart]
      have lambda : last.view.lambda.get k =
          before.view.lambda.get k + last.penalty.get k / before.rho := by
        rw [passage.published.lambda, passage.lambda, published.lambda, updatedMultipliers,
          get_zipWith]
      have estimate (u : View ℝ d) : (u.multiplierEstimate last.penalty).get k =
          u.lambda.get k + u.rho * last.penalty.get k := get_zipWith _ _ _ _
      change (equalityPart (last.view.multiplierEstimate last.penalty) ++
        inequalityPart (last.view.multiplierEstimate last.penalty)).get k = _ + (_ / _ +
          (last.rho - before.rho) * _)
      rw [whole, ← penalty, estimate, estimate, lambda, passage.published.rho, published.rho]
      ring

variable {e : Engine ℝ σ d} {obs : Observer ℝ d ω} {o : ω}

omit [DenseSolver ℝ] in
theorem Engine.opened_view (e : Engine ℝ σ d) : e.opened.view = e.state.view := by
  obtain ⟨w, recorded⟩ := State.recordFrom_eq
    { e.state with
      status := .pending, iter := 0, innerIters := 0, innerStatuses := [], lastInner := none }
    e.setup 1 (.penaltyStarted d e.setup.settings.rho0 e.setup.settings.growth)
  rw [Engine.opened, recorded]

/-- A run the observer stopped: at its first report nothing has moved, at a later one the parameters
have. -/
theorem Engine.Follows.returned_stopped
    (follows : e.Follows obs o reports .userStopped last) {init : List (State ℝ σ d)}
    (cut : reports = init ++ [last])
    (measured : reports.IsChain fun r r' => r'.MeasuredWith e.setup r.view)
    (first : ∀ r ∈ reports.head?, r.MeasuredWith e.setup r.view)
    (box : ∀ r ∈ reports, r.view.box = e.state.view.box) :
    ∃ eval, ReturnedWith e.setup reports e.state.view last.z eval
      { last with status := .userStopped }.result := by
  have begun := follows.path.first e.opened_tally
  have chain := follows.path.chain
  have member : last ∈ reports := by simp [cut]
  rcases init.eq_nil_or_concat with rfl | ⟨init, before, rfl⟩
  · subst cut
    refine (first last rfl).returned (box last member) fun _ => ?_
    exact (begun last rfl).2
  · have pair : [before, last] <:+: reports := ⟨init, [], by simp [cut]⟩
    have here : before ∈ reports := pair.subset (by simp)
    have passage : Passage e.setup before last := by simpa using chain.infix pair
    have late : last.MeasuredWith e.setup before.view := by simpa using measured.infix pair
    exact late.returned_later here (published_report begun chain here) passage (box before here)

/-- Every run that ends neither in an evaluation nor before it began, from whatever state its engine
is in: its result shows the errors at its final point, the feasibility error of the penalty vector
there and the optimality error of the multipliers it returns. An observer that stops the run after
the first report is the one exception: the optimality error is that of the multipliers before they
were moved. -/
theorem returned_multipliers_belong (e : Engine ℝ σ d) (obs : Observer ℝ d ω) (o : ω)
    (evaluated : (e.run obs o).1.status ≠ .errorInEvaluation)
    (started : (e.run obs o).1.status ≠ .incompleteInit) :
    ∃ reports last eval, e.Follows obs o reports (e.run obs o).1.status last ∧
      ReturnedWith e.setup reports e.state.view last.z eval (e.run obs o).1 := by
  obtain ⟨reports, status, last, follows⟩ := e.run_follows obs o
  obtain rfl : (e.run obs o).1.status = status := by
    rw [follows.result]
    rfl
  suffices ∃ eval, ReturnedWith e.setup reports e.state.view last.z eval
      { last with status := (e.run obs o).1.status }.result by
    obtain ⟨eval, returned⟩ := this
    rw [← follows.result] at returned
    exact ⟨reports, last, eval, follows, returned⟩
  generalize ended : (e.run obs o).1.status = status at *
  cases follows.path with
  | @startFailed f t start =>
    obtain blamed | blamed := last.startStopped_status e.setup f
    · exact absurd blamed evaluated
    · exact absurd blamed started
  | startDecided start =>
    obtain ⟨measured, box, -, unasked⟩ := prepare_measured start
    rw [e.opened_view] at box
    exact measured.returned box fun stopped => absurd (congrArg some stopped) unasked
  | @looped first last reports ending o' start course =>
    obtain ⟨measured, box, early, -⟩ := prepare_measured start
    rw [e.opened_view] at box
    cases ending with
    | error f =>
      obtain blamed | blamed := course.failure
      · exact absurd blamed evaluated
      · exact absurd blamed started
    | ok status =>
      have counted : first.iter = 0 := (prepare_tally e.opened_tally start).iter
      obtain ⟨ready, -⟩ := prepare_ok start
      have budget : first.termination.maxIter = first.iter + e.setup.settings.maxIter := by
        rw [ready.maxIter, counted, Nat.zero_add]
      obtain ⟨going, own⟩ | ⟨rfl, init, cut⟩ := course.regular (early rfl) budget
      · exact own.returned (course.box.1.trans box) fun stopped => absurd stopped going
      · refine follows.returned_stopped cut course.measured_chain (fun r here => ?_)
          fun r member => (course.box.2 r member).trans box
        rw [course.head r here, first.recordIteration_view]
        exact measured.recordIteration

end Returned

open scoped Linear.Exact

namespace Drift

/-- Minimize `x` subject to `x = 0`, from `x = 1`. -/
noncomputable def problem : Problem ℝ Unit ⟨1, 1, 0⟩ where
  variableBounds := pure (.good (single (-1e20), single 1e20))
  inequalityBounds := pure (.good (noEntries, noEntries))
  start := pure (.good (single 1))
  objective x _ := pure (.good (x.get ⟨0, Nat.one_pos⟩))
  gradient _ _ := pure (.good (single 1))
  equalities x _ := pure (.good x)
  inequalities _ _ := pure (.good noEntries)
  equalityJacobian _ _ := pure (.good (single (single 1)))
  inequalityJacobian _ _ := pure (.good noEntries)
  providesHessian := true
  hessian _ _ _ _ _ := pure (.good (single (single 0)))

/-- Default parameters, and subproblems without a budget. -/
noncomputable def settings : PenaltySettings ℝ :=
  { (PenaltySettings.default : PenaltySettings ℝ) with
    inner := { (PenaltySettings.default : PenaltySettings ℝ).inner with maxIter := 0 } }

noncomputable def setup : Setup ℝ Unit ⟨1, 1, 0⟩ := ⟨problem, settings⟩

noncomputable def engine : Engine ℝ Unit ⟨1, 1, 0⟩ :=
  ⟨setup, .initial settings ⟨Infeasible.box, single 0, single 0, 1⟩ ⟨(), []⟩⟩

def stopper : Observer ℝ ⟨1, 1, 0⟩ Unit where
  onIteration info _ := (decide (1 ≤ info.iter), ())
  onSolution _ _ := ()

noncomputable def values (x : Vector ℝ 1) : Evaluation ℝ ⟨1, 1, 0⟩ :=
  ⟨x.get ⟨0, Nat.one_pos⟩, x, noEntries, single 1, single (single 1), noEntries⟩

variable {s t : State ℝ Unit ⟨1, 1, 0⟩}

theorem answers_eq {x : Vector ℝ 1} {e : Evaluation ℝ ⟨1, 1, 0⟩}
    (answers : e.AnswersAt problem x) : e = values x := by
  have f := answers.f.eq_of_written rfl
  have eq := answers.eq.eq_of_written rfl
  have ineq := answers.ineq.eq_of_written rfl
  have grad := answers.grad.eq_of_written rfl
  have jacEq := Answered.eq_of_written rfl ⟨_, answers.jacEq⟩
  have jacIneq := Answered.eq_of_written rfl ⟨_, answers.jacIneq⟩
  obtain ⟨_, _, _, _, _, _⟩ := e
  simp only [values, Evaluation.mk.injEq]
  exact ⟨f, eq, ineq, grad, jacEq, jacIneq⟩

theorem absent_eq {b : Vector (Bound ℝ) 1} {value : ℝ} (i : Fin 1) (same : b = #v[⟨value, false⟩]) :
    (b.get i).present = false := by
  rw [same, Subsingleton.elim i 0]
  rfl

theorem free (same : s.view.box = Infeasible.box) :
    s.view.box.Apart (.ofSettings settings.inner) :=
  .of_free _ (fun i => absent_eq i (congrArg Box.lower same))
    fun i => absent_eq i (congrArg Box.upper same)

/-- Without bounds no starting point is pushed. -/
theorem unpushed {n : ℕ} {b : Box ℝ n} (lower : ∀ i, (b.lower.get i).present = false)
    (upper : ∀ i, (b.upper.get i).present = false) (kappa1 kappa2 : ℝ) (x : Vector ℝ n) :
    b.pushInside kappa1 kappa2 x = x := by
  apply ext_get
  intro i
  simp [Box.pushInside, pushInside, lower, upper]

theorem succeedsAt (x : Vector ℝ 1) : problem.SucceedsAt x where
  objective _ _ := rfl
  equalities _ _ := rfl
  inequalities _ _ := rfl
  gradient _ _ := rfl
  equalityJacobian _ _ := rfl
  inequalityJacobian _ _ := rfl

/-- A subproblem without a budget gives its start back. -/
theorem inner_stays (same : s.view.box = Infeasible.box) :
    ∃ res, innerResult setup s = some res ∧ res.x = s.view.start := by
  obtain ⟨w, found⟩ := innerResult_of_apart (c := setup) (free same) one_ne_zero
    (show _ = Except.ok true from rfl)
  refine ⟨_, found, ?_⟩
  obtain ⟨first, started⟩ := Barrier.startingProcedure_succeeds
    (c := (s.view.engine problem settings.inner true w).setup) (fun _ => rfl)
    (fun _ _ => View.succeedsAt (succeedsAt _)) (s.view.engine problem settings.inner true w).opened
  obtain ⟨reports, ending, last, follows⟩ :=
    Barrier.Engine.run_follows Observer.silent () started
  refine follows.x_eq.trans ?_
  rw [follows.point_of_no_budget rfl]
  obtain ⟨x0, e, y, w', given, -, rfl⟩ := Barrier.startingProcedure_ok started
  obtain rfl : x0 = s.view.start := Answered.eq_of_written rfl ⟨_, given⟩
  refine unpushed (fun i => ?_) (fun i => ?_) _ _ _
  · exact (View.bounds_present _ _ i).1.trans (absent_eq i (congrArg Box.lower same))
  · exact (View.bounds_present _ _ i).2.trans (absent_eq i (congrArg Box.upper same))

theorem single_ext {v w : Vector ℝ 1} (same : v.get 0 = w.get 0) : v = w := by
  apply ext_get
  intro i
  rw [Subsingleton.elim i 0]
  exact same

theorem infNorm_single (v : Vector ℝ 1) : infNorm v.toList = |v.get 0| := by
  apply le_antisymm
  · rw [infNorm_le_iff]
    refine ⟨abs_nonneg _, fun i => ?_⟩
    rw [Subsingleton.elim i 0]
  · exact ((infNorm_le_iff v _).mp le_rfl).2 0

/-- On the free variable the optimality error is the size of the gradient `1 + y`. -/
theorem optimality_eq {v : View ℝ ⟨1, 1, 0⟩} (same : v.box = Infeasible.box) (x : Vector ℝ 1)
    (z : Vector ℝ 1) (yc : Vector ℝ 1) (yd : Vector ℝ 0) :
    v.optimality (values x) z yc yd = |1 + yc.get 0| := by
  have slope : ((values x).lagrangianGradient yc yd ++ yd.map (-·)).get (0 : Fin 1) =
      1 + yc.get 0 := by
    refine (get_append_castAdd _ _ (0 : Fin 1)).trans ?_
    simp only [Evaluation.lagrangianGradient, Dense.get_addTransposeProduct]
    simp [values, Dense.entry, Vector.get]
  have whole : (v.projectedGradient z
      ((values x).lagrangianGradient yc yd ++ yd.map (-·))).get (0 : Fin 1) = 1 + yc.get 0 := by
    rw [View.projectedGradient, Vector.get_ofFn, clampTo, slope,
      absent_eq (0 : Fin 1) (congrArg Box.lower same),
      absent_eq (0 : Fin 1) (congrArg Box.upper same)]
    exact sub_sub_cancel _ _
  exact (infNorm_single _).trans (congrArg abs whole)

/-- What is measured at one: a unit penalty, and the gradient with the estimate of the view. -/
theorem measured_eq {v : View ℝ ⟨1, 1, 0⟩} (same : v.box = Infeasible.box) (z : s.z = #v[1])
    (measured : s.MeasuredWith setup v) :
    s.penalty = #v[1] ∧ s.errFeas = 1 ∧ s.errOptim = |1 + (v.lambda.get (0 : Fin 1) + v.rho)| := by
  obtain ⟨e, answers, penalty, feas, optim⟩ := measured
  obtain rfl := answers_eq answers
  have unit : s.penalty = #v[1] := by
    rw [penalty, z]
    refine single_ext ((get_append_castAdd _ _ (0 : Fin 1)).trans ?_)
    exact get_firstPart _ _
  refine ⟨unit, ?_, ?_⟩
  · rw [feas, unit]
    exact (infNorm_single _).trans abs_one
  · have error : s.errOptim = v.optimality (values (variablePart s.z)) s.z
        (equalityPart (v.multiplierEstimate s.penalty))
        (inequalityPart (v.multiplierEstimate s.penalty)) := optim
    rw [error, optimality_eq same, unit]
    simp [equalityPart, View.multiplierEstimate, get_firstPart, get_zipWith]

/-- A state of the loop: it stands at one, which is also the start of its subproblem, and the
stopping tests are the default ones, relative to a unit error. -/
structure Going (s : State ℝ Unit ⟨1, 1, 0⟩) : Prop where
  free : s.view.box = Infeasible.box
  z : s.z = #v[1]
  published : s.Published
  tests : ∃ errors count, (∀ e ∈ errors.head?, e = 1) ∧ s.termination =
    { Termination.ofPenalty settings with initialErrors := errors, acceptableCount := count }

theorem Going.recordIteration (going : Going s) : Going (s.recordIteration setup) := by
  obtain ⟨w, recorded⟩ := s.recordIteration_eq setup
  rw [recorded]
  exact { going with published := { going.published with } }

theorem start_going : ∃ first, (prepare setup).outcome engine.opened = (.ok none, first) ∧
    Going first ∧ first.Ready setup ∧ first.iter = 0 := by
  rcases start : (prepare setup).outcome engine.opened with ⟨f | verdict, first⟩
  · have succeeds : ((prepare setup).outcome engine.opened).1.isOk = true := rfl
    rw [start] at succeeds
    cases succeeds
  · have placed : (settle setup).outcome (engine.opened.placed setup
        ((engine.opened.view.userStart problem engine.opened.z).run ()).1.2) =
          (.ok verdict, first) := by
      rw [← start, outcome_prepare]
      rfl
    have point : ((engine.opened.view.userStart problem engine.opened.z).run ()).1.2 = #v[1] := by
      exact single_ext (get_append_castAdd _ _ (0 : Fin 1))
    rw [point] at placed
    obtain ⟨s₁, w, evaluated, undecided, rfl⟩ := settle_ok placed
    have measured := evaluated.measured
    obtain ⟨here, free, counted⟩ :
        s₁.z = #v[1] ∧ s₁.view.box = Infeasible.box ∧ s₁.iter = 0 := by
      obtain ⟨_, _, _, _, _, rfl⟩ := evaluated.touched
      exact ⟨rfl, rfl, rfl⟩
    obtain ⟨-, unit, -⟩ := measured_eq (s := s₁) rfl here measured
    obtain rfl : verdict = none := by
      rw [undecided, unit, counted]
      exact Infeasible.check_undecided _ 0 (by decide) nofun
    obtain ⟨ready, -⟩ := prepare_ok start
    refine ⟨_, rfl, ⟨free, here, ready.published, [s₁.errFeas, s₁.errOptim], 0, ?_, rfl⟩, ready,
      counted⟩
    rintro e ⟨⟩
    exact unit

/-- A major iteration leaves the point where it is and moves the parameters. -/
theorem Going.next (going : Going s) (early : s.iter + 1 < 1000) :
    ∃ t, (major setup).outcome s = (.ok none, t) ∧ t.z = #v[1] := by
  obtain ⟨res, found, stayed⟩ := inner_stays going.free
  rw [going.published.start, going.z] at stayed
  obtain ⟨verdict, t, ran⟩ := major_succeeds_of (c := setup) (s := s) (fun _ => rfl) (fun _ => rfl)
    (by rw [found]; nofun)
  obtain ⟨res', u, took, measured, ⟨-, -, stops, -⟩ | ⟨decided, left⟩⟩ := major_ok ran
  · cases stops
  · obtain rfl : res' = res := Option.some.inj (took.found.symm.trans found)
    have here : u.z = #v[1] := by
      rw [took.z, if_pos (allFinite_real _), stayed]
    obtain ⟨-, unit, -⟩ := measured_eq going.free here measured
    obtain ⟨errors, count, reference, tests⟩ := going.tests
    obtain ⟨count', same⟩ := took.termination
    rw [tests] at same
    obtain rfl : verdict = none := by
      have undecided := Infeasible.check_undecided u.errOptim count' (took.iter ▸ early) reference
      refine decided.trans (Eq.trans ?_ undecided)
      rw [State.check, same, unit]
      rfl
    exact ⟨t, ran, left ▸ here⟩

/-- The run reports the start and the state after one major iteration, and stops there. -/
theorem follows_two : ∃ r₀ r₁, engine.Follows stopper () [r₀, r₁] .userStopped r₁ ∧
    r₀.Ready setup ∧ r₀.view.box = Infeasible.box ∧ r₁.z = #v[1] ∧ r₁.MeasuredWith setup r₀.view ∧
    Passage setup r₀ r₁ := by
  obtain ⟨first, started, going, ready, counted⟩ := start_going
  have unmoved := (first.recordIteration_keeps setup).1
  obtain ⟨t, step, here⟩ := going.recordIteration.next (by omega)
  have passage := Passage.of_next step
  have answer₀ : stopper.onIteration (first.recordIteration setup).info () = (false, ()) := by
    have low : ¬1 ≤ (first.recordIteration setup).iter := by omega
    exact congrArg (·, ()) (decide_eq_false low)
  have answer₁ : stopper.onIteration (t.recordIteration setup).info () = (true, ()) := by
    have reached : 1 ≤ (t.recordIteration setup).iter := by
      rw [passage.iter]
      omega
    exact congrArg (·, ()) (decide_eq_true reached)
  obtain ⟨left, budget⟩ : ∃ left, engine.setup.settings.maxIter = left + 1 + 1 := ⟨998, rfl⟩
  have course : Course engine.setup stopper engine.setup.settings.maxIter first ()
      [first.recordIteration setup, t.recordIteration setup] (.ok .userStopped)
      (t.recordIteration setup) () := by
    rw [budget]
    exact .stepped answer₀ step (.stopped answer₁)
  have follows := Engine.Follows.of_course (e := engine) started course
  obtain ⟨res, u, took, measured, rfl⟩ := major_next step
  have box : (first.recordIteration setup).view.box = Infeasible.box := by
    rw [first.recordIteration_view]
    exact going.free
  have ready₀ : (first.recordIteration setup).Ready setup := by
    obtain ⟨w, recorded⟩ := first.recordIteration_eq setup
    rw [recorded]
    exact { ready with published := { ready.published with } }
  refine ⟨_, _, follows, ready₀, box, ?_, ?_, passage⟩
  · obtain ⟨w, recorded⟩ := (u.publishStart.advanceParameters setup).recordIteration_eq setup
    rw [recorded]
    exact here
  · exact State.MeasuredWith.recordIteration (s := u.publishStart.advanceParameters setup) measured

end Drift

/-- The run that an observer stops at its second report is no failure, and returns the error of the
multipliers before they were moved. -/
theorem drift_returns_with_move :
    (Drift.engine.run Drift.stopper ()).1.status = .userStopped ∧
    ∃ reports last eval, Drift.engine.Follows Drift.stopper () reports
        (Drift.engine.run Drift.stopper ()).1.status last ∧
      ReturnedWith Drift.engine.setup reports Drift.engine.state.view last.z eval
        (Drift.engine.run Drift.stopper ()).1 := by
  have stopped : (Drift.engine.run Drift.stopper ()).1.status = .userStopped := by
    obtain ⟨r₀, r₁, follows, -⟩ := Drift.follows_two
    rw [follows.result]
    rfl
  refine ⟨stopped, returned_multipliers_belong Drift.engine Drift.stopper () ?_ ?_⟩
  · rw [stopped]
    nofun
  · rw [stopped]
    nofun

/-- There the returned multiplier is `1001.01`. With it the optimality error at the final point is
`1002.01`, but the run returns `102`, the error with the estimate `101`. -/
theorem drift_error_of_other_multipliers :
    (Drift.engine.run Drift.stopper ()).1.status = .userStopped ∧
    (Drift.engine.run Drift.stopper ()).1.yc.get (0 : Fin 1) = 1001.01 ∧
    (Drift.engine.run Drift.stopper ()).1.info.errOptim = 102 ∧
    ∀ z e, (Drift.engine.run Drift.stopper ()).1.x = variablePart z →
      e.AnswersAt Drift.problem (Drift.engine.run Drift.stopper ()).1.x →
      Drift.engine.state.view.optimality e z (Drift.engine.run Drift.stopper ()).1.yc
        (Drift.engine.run Drift.stopper ()).1.yd = 1002.01 := by
  obtain ⟨r₀, r₁, follows, ready, free, here, measured, passage⟩ := Drift.follows_two
  obtain ⟨penalty, -, optim⟩ := Drift.measured_eq free here measured
  have lambda₀ : r₀.lambda.get (0 : Fin 1) = 1 := by
    rw [ready.lambda]
    rfl
  have rho₀ : r₀.rho = 100 := by
    rw [ready.rho]
    norm_num [Drift.setup, Drift.settings, PenaltySettings.default]
  have lambda₁ : r₁.view.lambda.get (0 : Fin 1) = 1 + 1 / 100 := by
    rw [passage.published.lambda, passage.lambda, penalty, rho₀, ← lambda₀]
    exact get_zipWith _ _ _ (0 : Fin 1)
  have rho₁ : r₁.view.rho = 1000 := by
    rw [passage.published.rho, passage.rho, rho₀]
    norm_num [Drift.setup, Drift.settings, PenaltySettings.default, updatedPenalty]
  have returned : (Drift.engine.run Drift.stopper ()).1.yc.get (0 : Fin 1) = 1001.01 := by
    rw [follows.result]
    change (equalityPart (r₁.view.multiplierEstimate r₁.penalty)).get (0 : Fin 1) = _
    rw [equalityPart, get_firstPart, penalty]
    refine (get_zipWith _ _ _ (0 : Fin 1)).trans ?_
    rw [lambda₁, rho₁]
    norm_num [Vector.get]
  refine ⟨?_, returned, ?_, fun z e _ answers => ?_⟩
  · rw [follows.result]
    rfl
  · rw [follows.result]
    change r₁.errOptim = 102
    rw [optim, ready.published.lambda, ready.published.rho, lambda₀, rho₀]
    norm_num
  · rw [Drift.answers_eq answers]
    refine (Drift.optimality_eq rfl _ z _ _).trans ?_
    rw [returned]
    norm_num

end Penalty

end SmoothOpt
