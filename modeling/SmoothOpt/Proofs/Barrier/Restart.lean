import SmoothOpt.Proofs.Barrier.Twin

/-!
Two runs side by side, from their starts.

A start writes the whole state but for the curvature, the memory of the shifts and the margins of
the filter. Where these are the same and the problems agree, two runs either both start, as twins,
and go alike to the end, or both fail at the start in one of two ways: refused before anything is
written, or with an evaluation at the starting point that failed.
-/
namespace SmoothOpt.Barrier

open Scalar Linear Step

variable {α σ ω : Type} [Scalar α] {d : Dims} {c : Setup α σ d} {q : Problem α σ d}
  {s t : State α σ d}

/-- Two states that agree in what a start does not write. -/
structure State.SameStart (s t : State α σ d) : Prop where
  filter : t.filter.clear = s.filter.clear
  curvature : s.curvature.Like t.curvature
  shifts : t.shifts = s.shifts
  status : t.status = s.status
  iter : t.iter = s.iter
  alphaPrimal : t.alphaPrimal = s.alphaPrimal
  alphaDual : t.alphaDual = s.alphaDual

/-- The state at a starting point, with what its evaluation has left. -/
def State.placed (s : State α σ d) (x : Vector α d.n) (e : Evaluation α d) (w : World α σ) :
    State α σ d :=
  { s with world := w, curr := { s.curr with x := { s.curr.x with point := x } }, eval := e }

/-- The point a run starts from: the problem's own, pushed inside the bounds. -/
def Setup.startPoint (c : Setup α σ d) (w : σ) : Vector α d.n :=
  c.bounds.x.pushInside c.settings.kappa1 c.settings.kappa2
    ((c.problem.start.run w).1.onto (Vector.replicate _ 0))

/-- How two starts fail alike: refused with the same fault, or at the evaluation of one point. -/
inductive FailedStarts (c : Setup α σ d) (q : Problem α σ d) (s t : State α σ d) :
    Failure α → Failure α → State α σ d → State α σ d → Prop
  | refused (fault : ProblemFault α) (w w' : World α σ) :
      FailedStarts c q s t (.invalidProblem fault) (.invalidProblem fault) { s with world := w }
        { t with world := w' }
  | unevaluated {x : Vector α d.n} {m m' n n' : σ} {what what' : Quantity} {e e' : Evaluation α d}
      (pushed : x = c.startPoint s.world.problem)
      (failed : (Evaluation.all c.problem x).outcome (s.eval, m) = (.error what, (e, n)))
      (failed' : (Evaluation.all q x).outcome (t.eval, m') = (.error what', (e', n')))
      (w w' : World α σ) :
      FailedStarts c q s t (.evaluation what) (.evaluation what') (s.placed x e w)
        (t.placed x e' w')

theorem State.placed_result (s : State α σ d) (x : Vector α d.n) (e : Evaluation α d)
    (w : World α σ) (status : Status) : { s.placed x e w with status := status }.result =
      { { s with status := status }.result with x := x, obj := e.f } := rfl

/-- Placing two states at one point changes what they stand for alike. -/
theorem State.SameResult.placed (same : s.SameResult t) (x : Vector α d.n) {e e' : Evaluation α d}
    (objective : e'.f = e.f) (w w' : World α σ) :
    (s.placed x e w).SameResult (t.placed x e' w') := by
  intro status
  rw [State.placed_result, State.placed_result, same status, objective]

theorem State.SameResult.objective (same : s.SameResult t) : t.eval.f = s.eval.f :=
  congrArg SolveResult.obj (same .pending)

theorem FailedStarts.startStatus_eq {f f' : Failure α} {s' t' : State α σ d}
    (failed : FailedStarts c q s t f f' s' t') : startStatus f' = startStatus f := by
  cases failed with
  | refused => rfl
  | unevaluated => rfl

/-- A start that fails again stands for the same: from the same state, or from the one that the
first failure has left, since an objective written twice is written once. -/
theorem FailedStarts.sameResult {f f' : Failure α} {s' t' : State α σ d}
    (failed : FailedStarts c c.problem s t f f' s' t')
    (steady : ∀ x, Steady (c.problem.objective x true))
    (before : s.SameResult t ∨ s'.SameResult t) : s'.SameResult t' := by
  cases failed with
  | refused fault w w' => exact before.elim id id
  | @unevaluated x m m' n n' what what' e e' pushed failed failed' w w' =>
    have left := Evaluation.all_objective c.problem x s.eval m
    have left' := Evaluation.all_objective c.problem x t.eval m'
    rw [failed] at left
    rw [failed', steady x m' m] at left'
    obtain same | same := before
    · refine same.placed x ?_ w w'
      rw [left, left', same.objective]
    · refine same.placed x (e := e) ?_ w w'
      have again : t.eval.f = e.f := same.objective
      rw [left', again, left]
      exact Reply.onto_onto _ _

/-- Evaluating at the starting point leaves two starts that agree, or fails in both. -/
theorem evaluating_start_alike (agrees : c.problem.Agrees q) (same : s.SameStart t)
    (w w' : World α σ) {x : Vector α d.n} (pushed : x = c.startPoint s.world.problem) :
    Matched (fun _ _ s' t' => s'.SameStart t' ∧ t'.curr.x.point = s'.curr.x.point ∧
        t'.eval = s'.eval)
      (FailedStarts c q s t)
      ((evaluating (Evaluation.all c.problem x)).outcome (s.placed x s.eval w))
      ((evaluating (Evaluation.all q x)).outcome (t.placed x t.eval w')) := by
  have evaluated := agrees.all x (s.eval, w.problem) (t.eval, w'.problem) trivial
  rcases ran : (Evaluation.all c.problem x).outcome (s.eval, w.problem) with ⟨what | _, e, n⟩
  · obtain ⟨what', ⟨e', n'⟩, ran', -⟩ := evaluated.of_error ran
    have failed : (evaluating (Evaluation.all c.problem x)).outcome (s.placed x s.eval w) =
        (.error (.evaluation what), s.placed x e { w with problem := n }) :=
      outcome_within_error.mpr ⟨what, (e, n), ran, rfl, rfl⟩
    have failed' : (evaluating (Evaluation.all q x)).outcome (t.placed x t.eval w') =
        (.error (.evaluation what'), t.placed x e' { w' with problem := n' }) :=
      outcome_within_error.mpr ⟨what', (e', n'), ran', rfl, rfl⟩
    rw [failed, failed']
    exact .error (.unevaluated pushed ran ran' _ _)
  · obtain ⟨_, ⟨e', n'⟩, ran', left⟩ := evaluated.of_ok ran
    have succeeded : (evaluating (Evaluation.all c.problem x)).outcome (s.placed x s.eval w) =
        (.ok (), s.placed x e { w with problem := n }) :=
      outcome_within_ok.mpr ⟨(e, n), ran, rfl⟩
    have succeeded' : (evaluating (Evaluation.all q x)).outcome (t.placed x t.eval w') =
        (.ok (), t.placed x e' { w' with problem := n' }) :=
      outcome_within_ok.mpr ⟨(e', n'), ran', rfl⟩
    rw [succeeded, succeeded']
    exact .ok ⟨⟨same.filter, same.curvature, same.shifts, same.status, same.iter, same.alphaPrimal,
      same.alphaDual⟩, rfl, left⟩

variable [DenseSolver α]

/-- At one point with one evaluation, two starts settle as twins. -/
theorem State.SameStart.settleStart (same : s.SameStart t)
    (x : t.curr.x.point = s.curr.x.point) (eval : t.eval = s.eval) :
    (s.settleStart c).Twin (t.settleStart (c.solving q)) := by
  obtain ⟨w, settled⟩ := settleStart_eq s c
  obtain ⟨w', settled'⟩ := settleStart_eq t (c.solving q)
  rw [settled, settled', x, eval]
  refine ⟨w', t.curvature, t.trialEval, ?_, same.curvature⟩
  simp only [State.started]
  rw [same.filter, same.shifts, same.status, same.iter, same.alphaPrimal, same.alphaDual]
  rfl

/-- Two starts go alike. -/
theorem startingProcedure_alike (agrees : c.problem.Agrees q) (same : s.SameStart t) :
    Matched (fun _ _ s' t' => s'.Twin t') (FailedStarts c q s t) ((startingProcedure c).outcome s)
      ((startingProcedure (c.solving q)).outcome t) := by
  have start := agrees.start s.world.problem t.world.problem
  unfold startingProcedure
  rw [outcome_bind, outcome_bind, outcome_askStart, outcome_askStart]
  have problem : (c.solving q).problem = q := rfl
  simp only [problem, start.ok]
  by_cases good : (c.problem.start.run s.world.problem).1.ok = true
  case neg =>
    simp only [good]
    exact .error (.refused _ _ _)
  rw [start.value good]
  generalize given : (c.problem.start.run s.world.problem).1.onto (Vector.replicate d.n 0) = x0
  by_cases finite : allFinite x0.toList = true
  case neg =>
    simp only [good, finite]
    exact .error (.refused _ _ _)
  simp only [good, finite, Bool.not_true, Bool.false_eq_true, if_false]
  rw [outcome_modify_bind, outcome_modify_bind]
  let x := c.bounds.x.pushInside c.settings.kappa1 c.settings.kappa2 x0
  let w : World α σ := { s.world with problem := (c.problem.start.run s.world.problem).2 }
  let w' : World α σ := { t.world with problem := (q.start.run t.world.problem).2 }
  refine Alike.bind (R := fun u u' => u = s.placed x s.eval w ∧ u' = t.placed x t.eval w')
    (Q := fun _ _ s' t' => s'.SameStart t' ∧ t'.curr.x.point = s'.curr.x.point ∧ t'.eval = s'.eval)
    ?_ (fun _ _ => .modify fun s' t' h => h.1.settleStart h.2.1 h.2.2) _ _ ⟨rfl, rfl⟩
  rintro _ _ ⟨rfl, rfl⟩
  exact evaluating_start_alike agrees same w w' (by rw [Setup.startPoint, given])

namespace Engine

/-- What a run tells its observer before its result: nothing when the start fails, else its reports
in order. -/
inductive Tells (e : Engine α σ d) (obs : Observer α d ω) (o : ω) : List (IterationInfo α) → Prop
  | nothing {cause : Failure α} {first : State α σ d}
      (start : (startingProcedure e.setup).outcome e.opened = (.error cause, first)) :
      Tells e obs o []
  | reports {first last : State α σ d} {reports : List (State α σ d)}
      {ending : Except (Failure α) Status} (follows : e.Follows obs o first reports ending last) :
      Tells e obs o (reports.map (·.info e.setup))

/-- Two runs that an observer cannot tell apart. -/
structure SameRun (e e' : Engine α σ d) (obs : Observer α d ω) (o : ω) : Prop where
  result : (e'.run obs o).1 = (e.run obs o).1
  memory : (e'.run obs o).2.2 = (e.run obs o).2.2
  told : ∃ infos, e.Tells obs o infos ∧ e'.Tells obs o infos

variable {e e' : Engine α σ d}

omit [DenseSolver α] in
/-- A run opens with what its engine keeps from one run to the next. -/
theorem opened_sameStart (filter : e'.state.filter.clear = e.state.filter.clear)
    (curvature : e.state.curvature.Like e'.state.curvature)
    (shifts : e'.state.shifts = e.state.shifts) : e.opened.SameStart e'.opened := by
  obtain ⟨w, opened⟩ := e.opened_eq
  obtain ⟨w', opened'⟩ := e'.opened_eq
  rw [opened, opened']
  exact ⟨filter, curvature, shifts, rfl, rfl, rfl, rfl⟩

/-- Where the problems agree, two runs are the same if one of them starts. -/
theorem SameRun.of_start (agrees : e.setup.problem.Agrees q)
    (replaced : e'.setup = e.setup.solving q) (same : e.opened.SameStart e'.opened)
    {first : State α σ d}
    (started : (startingProcedure e.setup).outcome e.opened = (.ok (), first))
    (obs : Observer α d ω) (o : ω) : e.SameRun e' obs o := by
  have starts := startingProcedure_alike agrees same
  rw [← replaced] at starts
  obtain ⟨_, first', started', twin⟩ := starts.of_ok started
  obtain ⟨reports, ending, last, follows⟩ := e.run_follows obs o started
  obtain ⟨o', course⟩ := follows.course
  have headed : (first.headed e.setup).Twin (first'.headed e'.setup) := by
    rw [replaced]
    exact twin.headed
  obtain ⟨reports', ending', last', course', told, status, result⟩ :=
    course.twin agrees follows.coherent_beginning headed
  rw [← replaced] at course' told
  have settings : e'.setup.settings = e.setup.settings := by
    rw [replaced]
    rfl
  rw [← settings] at course'
  have follows' := Follows.of_course started' course'
  have results : (e'.run obs o).1 = (e.run obs o).1 := by
    rw [follows.result, follows'.result, status]
    exact result _
  refine ⟨results, ?_, _, .reports follows, told ▸ .reports follows'⟩
  rw [follows.observer, follows'.observer, results, ← course.observer, ← course'.observer]

/-- Where the problems agree, two starts fail alike if one of them fails. -/
theorem failedStarts (agrees : e.setup.problem.Agrees q) (replaced : e'.setup = e.setup.solving q)
    (same : e.opened.SameStart e'.opened) {f : Failure α} {s : State α σ d}
    (start : (startingProcedure e.setup).outcome e.opened = (.error f, s)) :
    ∃ f' t, (startingProcedure e'.setup).outcome e'.opened = (.error f', t) ∧
      FailedStarts e.setup q e.opened e'.opened f f' s t := by
  have starts := startingProcedure_alike agrees same
  rw [← replaced] at starts
  exact starts.of_error start

/-- Runs whose starts fail alike are the same. -/
theorem SameRun.of_failed_starts {f f' : Failure α} {s t : State α σ d}
    (start : (startingProcedure e.setup).outcome e.opened = (.error f, s))
    (start' : (startingProcedure e'.setup).outcome e'.opened = (.error f', t))
    (status : startStatus f' = startStatus f) (same : s.SameResult t) (obs : Observer α d ω)
    (o : ω) : e.SameRun e' obs o := by
  obtain ⟨result, -, memory⟩ := run_of_failed_start obs o start
  obtain ⟨result', -, memory'⟩ := run_of_failed_start obs o start'
  have results : (e'.run obs o).1 = (e.run obs o).1 := by
    rw [result, result', status]
    exact same _
  refine ⟨results, ?_, [], .nothing start, .nothing start'⟩
  rw [memory, memory', results]

/-- On a repeatable problem two runs are the same when their engines agree in what a start does not
write, and a failed start finds the same before it or what the other has left. -/
theorem SameRun.of_repeatable (repeatable : e.setup.problem.Repeatable)
    (setup : e'.setup = e.setup) (same : e.opened.SameStart e'.opened)
    (failed : ∀ f s, (startingProcedure e.setup).outcome e.opened = (.error f, s) →
      e.opened.SameResult e'.opened ∨ s.SameResult e'.opened) (obs : Observer α d ω) (o : ω) :
    e.SameRun e' obs o := by
  have replaced : e'.setup = e.setup.solving e.setup.problem := setup
  rcases started : (startingProcedure e.setup).outcome e.opened with ⟨f | _, s⟩
  · obtain ⟨f', t, started', failures⟩ := failedStarts repeatable.agrees replaced same started
    exact .of_failed_starts started started' failures.startStatus_eq
      (failures.sameResult (fun x => (repeatable.objective x true).steady) (failed f s started)) obs
      o
  · exact .of_start repeatable.agrees replaced same started obs o

end Engine

end SmoothOpt.Barrier
