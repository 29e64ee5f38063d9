import SmoothOpt.Penalty.Engine
import SmoothOpt.Proofs.Penalty.View
import SmoothOpt.Proofs.Step
import SmoothOpt.Proofs.Termination

/-!
One major iteration of the augmented Lagrangian method, and the start before the first.

A start places the point and the parameters and evaluates there; `outcome_prepare`, `settle_ok` and
`settle_error` say what it can do. A major iteration solves a subproblem, evaluates at its point,
and ends the run or moves the parameters; `major_ok` and `major_error` say everything it can do.
What lies between two reports is a `Passage`.
-/
namespace SmoothOpt.Penalty

open Scalar Linear

variable {α σ ω : Type} [Scalar α] {d : Dims}

namespace State

/-- Only the world and what is evaluated at the current point may differ. -/
def Touched (s t : State α σ d) : Prop :=
  ∃ w f p feas optim,
    t = { s with world := w, obj := f, penalty := p, errFeas := feas, errOptim := optim }

/-- Objective, penalty vector and errors have been evaluated at the current point. -/
structure Evaluated (c : Setup α σ d) (s t : State α σ d) : Prop where
  touched : s.Touched t
  obj : Answered (c.problem.objective (variablePart s.z) true) t.obj
  errors : ∃ e, e.AnswersAt c.problem (variablePart s.z) ∧ t.penalty = penaltyVector e s.z ∧
    t.errFeas = infNorm t.penalty.toList ∧
    t.errOptim =
      infNorm (s.view.projectedGradient s.z (s.view.meritGradient e t.penalty)).toList

/-- The penalty vector and its norm are those of the current point. -/
def Penalized (c : Setup α σ d) (s : State α σ d) : Prop :=
  ∃ e, e.AnswersAt c.problem (variablePart s.z) ∧ s.penalty = penaltyVector e s.z ∧
    s.errFeas = infNorm s.penalty.toList

/-- The penalty vector and both errors are those of the current point, with the parameters of the
view `v`. -/
def MeasuredWith (c : Setup α σ d) (v : View α d) (s : State α σ d) : Prop :=
  ∃ e, e.AnswersAt c.problem (variablePart s.z) ∧ s.penalty = penaltyVector e s.z ∧
    s.errFeas = infNorm s.penalty.toList ∧
    s.errOptim = infNorm (v.projectedGradient s.z (v.meritGradient e s.penalty)).toList

theorem MeasuredWith.penalized {c : Setup α σ d} {v : View α d} {s : State α σ d}
    (measured : s.MeasuredWith c v) : s.Penalized c := by
  obtain ⟨e, answers, penalty, feas, -⟩ := measured
  exact ⟨e, answers, penalty, feas⟩

theorem Evaluated.measured {c : Setup α σ d} {s t : State α σ d} (evaluated : Evaluated c s t) :
    t.MeasuredWith c s.view := by
  obtain ⟨_, _, _, _, _, rfl⟩ := evaluated.touched
  exact evaluated.errors

/-- The counts are those of the subproblems `solved`. -/
structure Tally (s : State α σ d) (solved : List (SolveResult α (boxed d))) : Prop where
  iter : s.iter = solved.length
  innerIters : s.innerIters = (solved.map (·.info.iters)).sum
  innerStatuses : s.innerStatuses = solved.map (·.status)

/-- The view has the multipliers, the penalty parameter and the point of the loop. -/
structure Published (s : State α σ d) : Prop where
  lambda : s.view.lambda = s.lambda
  rho : s.view.rho = s.rho
  start : s.view.start = s.z

/-- The parameters are those a loop starts with. -/
structure Ready (c : Setup α σ d) (s : State α σ d) : Prop where
  lambda : s.lambda = Vector.replicate _ c.settings.lambda0
  rho : s.rho = c.settings.rho0
  published : s.Published
  maxIter : s.termination.maxIter = c.settings.maxIter

omit [Scalar α] in
theorem Touched.tally {s t : State α σ d} (touched : s.Touched t)
    {solved : List (SolveResult α (boxed d))} (tally : s.Tally solved) : t.Tally solved := by
  obtain ⟨_, _, _, _, _, rfl⟩ := touched
  exact { tally with }

omit [Scalar α] in
theorem recordFrom_eq (s : State α σ d) (c : Setup α σ d) (verbosity : Nat) (e : Event α) :
    ∃ w, s.recordFrom c verbosity e = { s with world := w } := by
  unfold recordFrom
  split
  · exact ⟨_, rfl⟩
  · exact ⟨_, rfl⟩

omit [Scalar α] in
theorem startStopped_eq (s : State α σ d) (c : Setup α σ d) (cause : Failure α) :
    ∃ w, (s.startStopped c cause).2 = { s with world := w } := by
  unfold startStopped
  split
  · exact s.recordFrom_eq c 1 _
  · exact ⟨_, rfl⟩

omit [Scalar α] in
/-- A report adds to the log only. -/
theorem recordIteration_eq (s : State α σ d) (c : Setup α σ d) :
    ∃ w, s.recordIteration c = { s with world := w } := by
  have headed : ∃ w, (if s.iter % 10 = 0 then s.recordFrom c 2 .penaltyHeader else s) =
      { s with world := w } := by
    split
    · exact s.recordFrom_eq c 2 .penaltyHeader
    · exact ⟨_, rfl⟩
  obtain ⟨w, headed⟩ := headed
  unfold recordIteration
  rw [headed]
  exact recordFrom_eq _ _ _ _

omit [Scalar α] in
theorem recordIteration_view (s : State α σ d) (c : Setup α σ d) :
    (s.recordIteration c).view = s.view := by
  obtain ⟨w, recorded⟩ := s.recordIteration_eq c
  rw [recorded]

omit [Scalar α] in
theorem recordIteration_keeps (s : State α σ d) (c : Setup α σ d) :
    (s.recordIteration c).iter = s.iter ∧
      (s.recordIteration c).termination.maxIter = s.termination.maxIter := by
  obtain ⟨w, recorded⟩ := s.recordIteration_eq c
  rw [recorded]
  exact ⟨rfl, rfl⟩

omit [Scalar α] in
theorem Tally.recordIteration {s : State α σ d} {solved : List (SolveResult α (boxed d))}
    (tally : s.Tally solved) (c : Setup α σ d) : (s.recordIteration c).Tally solved := by
  obtain ⟨w, recorded⟩ := s.recordIteration_eq c
  rw [recorded]
  exact { tally with }

end State

variable {c : Setup α σ d} {s t : State α σ d}

/-- The objective is what the problem answers, and it is stored in any case. -/
theorem outcome_evaluateObjective (c : Setup α σ d) (s : State α σ d) :
    (evaluateObjective c).outcome s =
      let r := (c.problem.objective (variablePart s.z) true).run s.world.problem
      (if r.1.ok && isFinite (r.1.onto s.obj) then .ok () else .error (.evaluation .objective),
        { s with world := { s.world with problem := r.2 }, obj := r.1.onto s.obj }) := by
  have called : (calling fun s : State α σ d => View.userObjective c.problem s.z s.obj).outcome s =
      let r := (c.problem.objective (variablePart s.z) true).run s.world.problem
      (.ok (r.1.ok && isFinite (r.1.onto s.obj), r.1.onto s.obj),
        { s with world := { s.world with problem := r.2 } }) := rfl
  rw [evaluateObjective, Step.outcome_bind, called]
  dsimp only
  rw [Step.outcome_modify_bind]
  cases ((c.problem.objective (variablePart s.z) true).run s.world.problem).1.ok &&
    isFinite (((c.problem.objective (variablePart s.z) true).run s.world.problem).1.onto s.obj) <;>
    rfl

theorem evaluateObjective_ok (h : (evaluateObjective c).outcome s = (.ok (), t)) :
    ∃ w f, t = { s with world := w, obj := f } ∧
      Answered (c.problem.objective (variablePart s.z) true) f := by
  simp only [outcome_evaluateObjective, Prod.mk.injEq] at h
  obtain ⟨verdict, rfl⟩ := h
  split at verdict
  · rename_i good
    rw [Bool.and_eq_true] at good
    exact ⟨_, _, rfl, _, _, good.1, rfl⟩
  · cases verdict

theorem evaluateObjective_error {f : Failure α}
    (h : (evaluateObjective c).outcome s = (.error f, t)) : s.Touched t := by
  simp only [outcome_evaluateObjective, Prod.mk.injEq] at h
  obtain ⟨-, rfl⟩ := h
  exact ⟨_, _, _, _, _, rfl⟩

/-- The errors are those of the residuals; a penalty vector is stored before the gradient is
checked. -/
theorem outcome_evaluateErrors (c : Setup α σ d) (s : State α σ d) :
    (evaluateErrors c).outcome s =
      match (s.view.residuals c.problem s.z).run s.world.problem with
      | (none, w) =>
        (.error (.evaluation .residuals), { s with world := { s.world with problem := w } })
      | (some (penalty, gradient), w) =>
        if allFinite gradient.toList then
          (.ok (), { s with
            world := { s.world with problem := w }
            penalty := penalty
            errFeas := infNorm penalty.toList
            errOptim := infNorm gradient.toList })
        else
          (.error (.evaluation .residuals),
            { s with world := { s.world with problem := w }, penalty := penalty }) := by
  have called : (calling fun s : State α σ d => s.view.residuals c.problem s.z).outcome s =
      let r := (s.view.residuals c.problem s.z).run s.world.problem
      (.ok r.1, { s with world := { s.world with problem := r.2 } }) := rfl
  rw [evaluateErrors, Step.outcome_bind, called]
  rcases (s.view.residuals c.problem s.z).run s.world.problem with ⟨_ | ⟨penalty, gradient⟩, w⟩
  · rfl
  · dsimp only
    rw [Step.outcome_modify_bind]
    cases allFinite gradient.toList <;> rfl

theorem evaluateErrors_ok (h : (evaluateErrors c).outcome s = (.ok (), t)) :
    ∃ w p feas optim, t = { s with world := w, penalty := p, errFeas := feas, errOptim := optim } ∧
      ∃ e, e.AnswersAt c.problem (variablePart s.z) ∧ p = penaltyVector e s.z ∧
        feas = infNorm p.toList ∧
        optim = infNorm (s.view.projectedGradient s.z (s.view.meritGradient e p)).toList := by
  rw [outcome_evaluateErrors] at h
  split at h
  · cases h
  · rename_i answered
    split at h
    · cases h
      obtain ⟨e, answers, rfl, rfl⟩ := residuals_some answered
      exact ⟨_, _, _, _, rfl, e, answers, rfl, rfl, rfl⟩
    · cases h

theorem evaluateErrors_error {f : Failure α}
    (h : (evaluateErrors c).outcome s = (.error f, t)) : s.Touched t := by
  rw [outcome_evaluateErrors] at h
  split at h
  · cases h
    exact ⟨_, _, _, _, _, rfl⟩
  · split at h
    · cases h
    · cases h
      exact ⟨_, _, _, _, _, rfl⟩

/-- Both evaluations of a point, one after the other. -/
theorem evaluated_of_outcomes {s₁ : State α σ d}
    (objective : (evaluateObjective c).outcome s = (.ok (), s₁))
    (errors : (evaluateErrors c).outcome s₁ = (.ok (), t)) : State.Evaluated c s t := by
  obtain ⟨w₁, f, rfl, answered⟩ := evaluateObjective_ok objective
  obtain ⟨w₂, p, feas, optim, rfl, found⟩ := evaluateErrors_ok errors
  exact ⟨⟨_, _, _, _, _, rfl⟩, answered, found⟩

theorem touched_of_outcomes {s₁ : State α σ d} {f : Failure α}
    (objective : (evaluateObjective c).outcome s = (.ok (), s₁))
    (errors : (evaluateErrors c).outcome s₁ = (.error f, t)) : s.Touched t := by
  obtain ⟨w₁, f, rfl, -⟩ := evaluateObjective_ok objective
  obtain ⟨_, _, _, _, _, rfl⟩ := evaluateErrors_error errors
  exact ⟨_, _, _, _, _, rfl⟩

/-- The state the loop starts from: the point is also the start of the first subproblem, and the
parameters are those of the settings, for the loop and for the view. -/
def State.placed (s : State α σ d) (c : Setup α σ d) (z : Vector α (d.n + d.mIneq)) : State α σ d :=
  { s with z := z }.publishStart.withParameters (Vector.replicate _ c.settings.lambda0)
    c.settings.rho0

/-- The part of a start after the point has been placed. -/
def settle (c : Setup α σ d) : Run α σ d (Option Status) := do
  evaluateObjective c
  evaluateErrors c
  modify ({ · with termination := .ofPenalty c.settings })
  let (verdict, s) := (← get).check
  let s := { s with termination := s.termination.recordInitial [s.errFeas, s.errOptim] }
  set (s.recordFrom c 3 (.penaltyStart s.obj s.errFeas s.errOptim))
  return verdict

theorem outcome_prepare (c : Setup α σ d) (s : State α σ d) :
    (prepare c).outcome s =
      let r := (s.view.userStart c.problem s.z).run s.world.problem
      let s₁ := { s with world := { s.world with problem := r.2 } }
      if r.1.1 then (settle c).outcome (s₁.placed c r.1.2)
      else (.error (.invalidProblem .startFailed), { s₁ with z := r.1.2 }) := by
  have called : (calling fun s : State α σ d => s.view.userStart c.problem s.z).outcome s =
      let r := (s.view.userStart c.problem s.z).run s.world.problem
      (.ok r.1, { s with world := { s.world with problem := r.2 } }) := rfl
  rw [prepare, Step.outcome_bind, called]
  rcases (s.view.userStart c.problem s.z).run s.world.problem with ⟨⟨_ | _, z⟩, w⟩ <;> rfl

/-- What a check at the start tells and leaves: the errors there are the reference of the relative
test. -/
theorem settle_ok {verdict : Option Status} (h : (settle c).outcome s = (.ok verdict, t)) :
    ∃ s₁ w, State.Evaluated c s s₁ ∧
      verdict = ((Termination.ofPenalty c.settings).check [s₁.errFeas, s₁.errOptim] s₁.iter).1 ∧
      t = { s₁ with
        world := w
        termination := (Termination.ofPenalty c.settings).recordInitial
          [s₁.errFeas, s₁.errOptim] } := by
  simp only [settle, Step.outcome_bind_ok, Step.outcome_modify_bind, Step.outcome_get_bind,
    Step.outcome_set_bind, Step.outcome_pure, Prod.mk.injEq, Except.ok.injEq] at h
  obtain ⟨_, s₁, objective, _, s₂, errors, rfl, rfl⟩ := h
  obtain ⟨w, recorded⟩ := State.recordFrom_eq
    { s₂ with termination := ((Termination.ofPenalty c.settings).check
        [s₂.errFeas, s₂.errOptim] s₂.iter).2.recordInitial [s₂.errFeas, s₂.errOptim] } c 3
    (.penaltyStart s₂.obj s₂.errFeas s₂.errOptim)
  obtain ⟨count, counted⟩ := (Termination.ofPenalty c.settings).check_state
    [s₂.errFeas, s₂.errOptim] s₂.iter
  refine ⟨s₂, w, evaluated_of_outcomes objective errors, rfl, recorded.trans ?_⟩
  rw [counted]
  rfl

theorem settle_error {f : Failure α} (h : (settle c).outcome s = (.error f, t)) : s.Touched t := by
  simp only [settle, Step.outcome_bind_error, Step.outcome_modify_bind, Step.outcome_get_bind,
    Step.outcome_set_bind, Step.outcome_pure, Prod.mk.injEq, reduceCtorEq, false_and, and_false,
    exists_false, or_false] at h
  obtain objective | ⟨_, s₁, objective, errors⟩ := h
  · exact evaluateObjective_error objective
  · exact touched_of_outcomes objective errors

/-- A start that succeeds is ready for the loop, and blames the budget only when there is none. -/
theorem prepare_ok {verdict : Option Status} (h : (prepare c).outcome s = (.ok verdict, t)) :
    t.Ready c ∧ (verdict = some .maxIterExceeded → c.settings.maxIter ≤ t.iter) := by
  rw [outcome_prepare] at h
  dsimp only at h
  split at h
  · obtain ⟨s₁, w, evaluated, verdict, rfl⟩ := settle_ok h
    obtain ⟨_, _, _, _, _, rfl⟩ := evaluated.touched
    refine ⟨⟨rfl, rfl, ⟨rfl, rfl, rfl⟩, rfl⟩, fun blamed => ?_⟩
    rw [verdict] at blamed
    obtain ⟨⟨⟩, -⟩ | ⟨-, spent⟩ | ⟨⟨⟩⟩ | ⟨⟨⟩⟩ := Termination.check_cases blamed
    exact spent
  · cases h

/-- Two states that agree in what a start does not write, but for the bound multipliers. -/
structure State.SameStart (s t : State α σ d) : Prop where
  box : t.view.box = s.view.box
  status : t.status = s.status
  iter : t.iter = s.iter
  innerIters : t.innerIters = s.innerIters
  innerStatuses : t.innerStatuses = s.innerStatuses
  lastInner : t.lastInner = s.lastInner

/-- What the last part of a start can change. -/
theorem settle_keeps {r : Except (Failure α) (Option Status)}
    (h : (settle c).outcome s = (r, t)) :
    ∃ w f p feas optim k, t = { s with
      world := w, obj := f, penalty := p, errFeas := feas, errOptim := optim
      termination := k } := by
  cases r with
  | error f =>
    obtain ⟨w, f, p, feas, optim, rfl⟩ := settle_error h
    exact ⟨w, f, p, feas, optim, _, rfl⟩
  | ok verdict =>
    obtain ⟨s₁, w, evaluated, -, rfl⟩ := settle_ok h
    obtain ⟨_, f, p, feas, optim, rfl⟩ := evaluated.touched
    exact ⟨w, f, p, feas, optim, _, rfl⟩

/-- A start keeps what it does not write. -/
theorem prepare_keeps {r : Except (Failure α) (Option Status)}
    (h : (prepare c).outcome s = (r, t)) : s.SameStart t := by
  rw [outcome_prepare] at h
  dsimp only at h
  split at h
  · obtain ⟨_, _, _, _, _, _, rfl⟩ := settle_keeps h
    exact ⟨rfl, rfl, rfl, rfl, rfl, rfl⟩
  · cases h
    exact ⟨rfl, rfl, rfl, rfl, rfl, rfl⟩

/-- No subproblem is solved for a start. -/
theorem prepare_tally {solved : List (SolveResult α (boxed d))} (tally : s.Tally solved)
    {r : Except (Failure α) (Option Status)} (h : (prepare c).outcome s = (r, t)) :
    t.Tally solved := by
  rw [outcome_prepare] at h
  dsimp only at h
  split at h
  · cases r with
    | error f => exact (settle_error h).tally { tally with }
    | ok verdict =>
      obtain ⟨s₁, w, evaluated, -, rfl⟩ := settle_ok h
      exact { evaluated.touched.tally { tally with } with }
  · cases h
    exact { tally with }

section Major

variable [DenseSolver α]

/-- The result of the subproblem of a state, if its engine can be created. -/
def innerResult (c : Setup α σ d) (s : State α σ d) : Option (SolveResult α (boxed d)) :=
  match (Barrier.Engine.create (s.view.problem c.problem) c.settings.inner).outcome s.world with
  | (.error _, _) => none
  | (.ok engine, _) => some (engine.run Observer.silent ()).1

def State.solved (s : State α σ d) (res : SolveResult α (boxed d)) : State α σ d :=
  { s.takeInner res with iter := (s.takeInner res).iter + 1 }

theorem solveSubproblem_ok {status : Status}
    (h : (solveSubproblem c).outcome s = (.ok status, t)) :
    ∃ res w, innerResult c s = some res ∧ status = res.status ∧
      t = { s with world := w }.takeInner res := by
  rw [solveSubproblem, Step.outcome_ofOutcome] at h
  rcases created : (Barrier.Engine.create (s.view.problem c.problem) c.settings.inner).outcome
    s.world with ⟨cause | engine, w⟩ <;> rw [created] at h
  · cases h
  · cases h
    rw [innerResult, created]
    exact ⟨_, _, rfl, rfl, rfl⟩

theorem solveSubproblem_error {f : Failure α}
    (h : (solveSubproblem c).outcome s = (.error f, t)) :
    innerResult c s = none ∧ ∃ w, t = { s with world := w } := by
  rw [solveSubproblem, Step.outcome_ofOutcome] at h
  rcases created : (Barrier.Engine.create (s.view.problem c.problem) c.settings.inner).outcome
    s.world with ⟨cause | engine, w⟩ <;> rw [created] at h
  · cases h
    rw [innerResult, created]
    exact ⟨rfl, _, rfl⟩
  · cases h

def major (c : Setup α σ d) : Run α σ d (Option Status) := do
  let status ← solveSubproblem c
  modify fun s => { s with iter := s.iter + 1 }
  evaluateObjective c
  evaluateErrors c
  if status.isFailure && c.settings.stopOnInnerFailure then return some .innerSolveFailed
  let (verdict, s) := (← get).check
  set s
  if verdict.isSome then return verdict
  modify fun s => s.publishStart.advanceParameters c
  return none

/-- The subproblem of `s` gave `res`, and `t` has taken it over: the point if it is finite, and one
more entry of every count. The parameters are still those the subproblem was solved with, and the
stopping tests are the same up to their count. -/
structure Took (c : Setup α σ d) (s : State α σ d) (res : SolveResult α (boxed d))
    (t : State α σ d) : Prop where
  found : innerResult c s = some res
  z : t.z = if allFinite res.x.toList then res.x else s.z
  iter : t.iter = s.iter + 1
  innerIters : t.innerIters = s.innerIters + res.info.iters
  innerStatuses : t.innerStatuses = s.innerStatuses ++ [res.status]
  lambda : t.lambda = s.lambda
  rho : t.rho = s.rho
  view : t.view = s.view
  termination : ∃ count, t.termination = { s.termination with acceptableCount := count }

theorem Took.maxIter_eq {res : SolveResult α (boxed d)} (took : Took c s res t) :
    t.termination.maxIter = s.termination.maxIter := by
  obtain ⟨_, same⟩ := took.termination
  rw [same]

theorem Took.of_solved {res : SolveResult α (boxed d)} (found : innerResult c s = some res)
    (w : World α σ) : Took c s res ({ s with world := w }.solved res) := by
  by_cases finite : allFinite res.x.toList <;> by_cases success : res.status.isSuccess <;>
    simp only [State.solved, State.takeInner, State.record, finite, success, if_true] <;>
    exact ⟨found, by simp [finite], rfl, rfl, rfl, rfl, rfl, rfl, _, rfl⟩

theorem Took.touched {res : SolveResult α (boxed d)} {t' : State α σ d} (took : Took c s res t)
    (touched : t.Touched t') : Took c s res t' := by
  obtain ⟨_, _, _, _, _, rfl⟩ := touched
  exact { took with }

theorem Took.check {res : SolveResult α (boxed d)} (took : Took c s res t) :
    Took c s res t.check.2 := by
  obtain ⟨count, counted⟩ := t.termination.check_state [t.errFeas, t.errOptim] t.iter
  obtain ⟨_, same⟩ := took.termination
  refine { took with termination := ⟨count, counted.trans ?_⟩ }
  rw [same]

/-- A major iteration that does not fail takes the result of its subproblem and evaluates the point.
Then it ends the run, because the subproblem failed or because a check says so, or it moves the
parameters on. -/
theorem major_ok {verdict : Option Status} (h : (major c).outcome s = (.ok verdict, t)) :
    ∃ res u, Took c s res u ∧ u.MeasuredWith c s.view ∧
      ((verdict = some .innerSolveFailed ∧ res.status.isFailure = true ∧
          c.settings.stopOnInnerFailure = true ∧ t = u) ∨
        (verdict = u.check.1 ∧
          t = if verdict.isSome then u.check.2
            else u.check.2.publishStart.advanceParameters c)) := by
  simp only [major, Step.outcome_bind_ok, Step.outcome_modify_bind] at h
  obtain ⟨status, s₁, solved, _, s₂, objective, _, s₃, errors, rest⟩ := h
  obtain ⟨res, w, found, rfl, rfl⟩ := solveSubproblem_ok solved
  have evaluated : State.Evaluated c ({ s with world := w }.solved res) s₃ :=
    evaluated_of_outcomes objective errors
  have took := Took.of_solved found w
  have measured : s₃.MeasuredWith c s.view := took.view ▸ evaluated.measured
  refine ⟨res, s₃, took.touched evaluated.touched, measured, ?_⟩
  split at rest
  · rename_i failed
    rw [Bool.and_eq_true] at failed
    cases rest
    exact .inl ⟨rfl, failed.1, failed.2, rfl⟩
  · simp only [Step.outcome_get_bind, Step.outcome_set_bind] at rest
    split at rest
    · rename_i some
      cases rest
      exact .inr ⟨rfl, (if_pos some).symm⟩
    · rename_i none
      cases rest
      simp only [Option.not_isSome_iff_eq_none] at none
      exact .inr ⟨none.symm, rfl⟩

/-- Where a major iteration fails: its subproblem is refused, or the point the subproblem found
cannot be evaluated. -/
theorem major_error_cases {f : Failure α} (h : (major c).outcome s = (.error f, t)) :
    (solveSubproblem c).outcome s = (.error f, t) ∨ ∃ res w, innerResult c s = some res ∧
      ((evaluateObjective c).outcome ({ s with world := w }.solved res) = (.error f, t) ∨
        ∃ u, (evaluateObjective c).outcome ({ s with world := w }.solved res) = (.ok (), u) ∧
          (evaluateErrors c).outcome u = (.error f, t)) := by
  simp only [major, Step.outcome_bind_error, Step.outcome_modify_bind] at h
  obtain refused | ⟨status, s₁, solved, objective | ⟨_, s₂, objective,
    errors | ⟨_, s₃, -, rest⟩⟩⟩ := h
  · exact .inl refused
  · obtain ⟨res, w, found, rfl, rfl⟩ := solveSubproblem_ok solved
    exact .inr ⟨res, w, found, .inl objective⟩
  · obtain ⟨res, w, found, rfl, rfl⟩ := solveSubproblem_ok solved
    exact .inr ⟨res, w, found, .inr ⟨s₂, objective, errors⟩⟩
  -- nothing fails after the evaluations
  · split at rest
    · cases rest
    · simp only [Step.outcome_get_bind, Step.outcome_set_bind] at rest
      split at rest
      · cases rest
      · cases rest

/-- A major iteration that fails does so before its subproblem is solved, or at the point the
subproblem found. -/
theorem major_error {f : Failure α} (h : (major c).outcome s = (.error f, t)) :
    (innerResult c s = none ∧ ∃ w, t = { s with world := w }) ∨ ∃ res, Took c s res t := by
  obtain refused | ⟨res, w, found, objective | ⟨u, objective, errors⟩⟩ := major_error_cases h
  · exact .inl (solveSubproblem_error refused)
  · exact .inr ⟨res, (Took.of_solved found w).touched (evaluateObjective_error objective)⟩
  · exact .inr ⟨res, (Took.of_solved found w).touched (touched_of_outcomes objective errors)⟩

/-- A major iteration succeeds where its subproblem can be set up and the point can be evaluated. -/
theorem major_succeeds_of (objective : ∀ s, ((evaluateObjective c).outcome s).1 = .ok ())
    (errors : ∀ s, ((evaluateErrors c).outcome s).1 = .ok ()) (found : innerResult c s ≠ none) :
    ∃ verdict t, (major c).outcome s = (.ok verdict, t) := by
  rcases ran : (major c).outcome s with ⟨f | verdict, t⟩
  · obtain refused | ⟨res, w, -, failed | ⟨u, -, failed⟩⟩ := major_error_cases ran
    · exact absurd (solveSubproblem_error refused).1 found
    · cases (objective _).symm.trans (congrArg Prod.fst failed)
    · cases (errors _).symm.trans (congrArg Prod.fst failed)
  · exact ⟨verdict, t, rfl⟩

/-- What a major iteration that goes on changes. -/
theorem major_next (h : (major c).outcome s = (.ok none, t)) :
    ∃ res u, Took c s res u ∧ u.MeasuredWith c s.view ∧
      t = u.publishStart.advanceParameters c := by
  obtain ⟨res, u, took, measured, ⟨impossible, -⟩ | ⟨-, left⟩⟩ := major_ok h
  · cases impossible
  · exact ⟨res, u.check.2, took.check, measured, left⟩

/-- A major iteration that ends the run leaves the result of its subproblem, and blames the budget
only when it is spent. -/
theorem major_decided {status : Status} (h : (major c).outcome s = (.ok (some status), t)) :
    (∃ res, Took c s res t) ∧ status ≠ .userStopped ∧
      (status = .maxIterExceeded → s.termination.maxIter ≤ t.iter) := by
  obtain ⟨res, u, took, -, ⟨failed, -, -, rfl⟩ | ⟨verdict, left⟩⟩ := major_ok h
  · cases failed
    exact ⟨⟨res, took⟩, nofun, nofun⟩
  · obtain rfl : t = u.check.2 := left
    refine ⟨⟨res, took.check⟩, ?_⟩
    rw [← took.maxIter_eq]
    obtain ⟨rfl, -⟩ | ⟨rfl, spent⟩ | rfl | rfl := Termination.check_cases verdict.symm
    · exact ⟨nofun, nofun⟩
    · exact ⟨nofun, fun _ => spent⟩
    · exact ⟨nofun, nofun⟩
    · exact ⟨nofun, nofun⟩

theorem major_box {r : Except (Failure α) (Option Status)} (h : (major c).outcome s = (r, t)) :
    t.view.box = s.view.box := by
  cases r with
  | error f =>
    obtain ⟨-, w, rfl⟩ | ⟨res, took⟩ := major_error h
    · rfl
    · rw [took.view]
  | ok verdict =>
    obtain ⟨res, u, took, -, ⟨-, -, -, rfl⟩ | ⟨-, left⟩⟩ := major_ok h
    · rw [took.view]
    · have kept : u.view.box = s.view.box := congrArg View.box took.view
      rw [left]
      split
      · exact kept
      · exact kept

end Major

/-- What lies between two consecutive reports: a subproblem solved with the parameters of the first,
the penalty vector at its point, and the parameters that follow from it. -/
structure Passage [DenseSolver α] (c : Setup α σ d) (s t : State α σ d) : Prop where
  iter : t.iter = s.iter + 1
  solved : ∃ res, innerResult c s = some res ∧
    t.z = if allFinite res.x.toList then res.x else s.z
  penalized : t.Penalized c
  lambda : t.lambda = updatedMultipliers s.lambda t.penalty s.rho
  rho : t.rho = updatedPenalty c.settings.growth s.rho c.settings.rhoIncrease c.settings.rhoMax
  published : t.Published

theorem Passage.of_next [DenseSolver α] (h : (major c).outcome s = (.ok none, t)) :
    Passage c s (t.recordIteration c) := by
  obtain ⟨res, u, took, measured, rfl⟩ := major_next h
  obtain ⟨w, recorded⟩ := (u.publishStart.advanceParameters c).recordIteration_eq c
  rw [recorded]
  refine ⟨took.iter, ⟨res, took.found, took.z⟩, measured.penalized, ?_, ?_, ⟨rfl, rfl, rfl⟩⟩
  · rw [← took.lambda, ← took.rho]
    rfl
  · rw [← took.rho]
    rfl

end SmoothOpt.Penalty
