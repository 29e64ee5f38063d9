import SmoothOpt.Proofs.Barrier.Rerun
import SmoothOpt.Proofs.Penalty.Multipliers
import SmoothOpt.Proofs.Penalty.Transparency
import SmoothOpt.Proofs.Termination.Streak

/-!
The termination checks of a run.

Both methods check once a pass, and what they report to the observer is what the check was asked
about. The interior point method records its reference before its first check. The augmented
Lagrangian method checks its starting point first and records the reference afterwards, which also
starts the count anew, so that an acceptable starting point is forgotten
(`acceptable_level_ends_first_streak`, `slope_counts_start_apart`).
-/
namespace SmoothOpt

open Scalar Linear

variable {α σ ω : Type} [Scalar α] {d : Dims}

namespace Barrier

variable {c : Setup α σ d} {s s' last : State α σ d}

/-- What the termination check of a pass is asked. -/
def State.query (s : State α σ d) : Termination.Query α := ⟨[s.resid.nlpOverall], s.iter⟩

/-- A report shows what was checked, and carries the count on. -/
theorem State.reported_query (s : State α σ d) (c : Setup α σ d) :
    (s.reported c).query = s.query ∧ (s.reported c).termination = s.checked.2.termination := by
  obtain ⟨iter, error, tests⟩ := s.reported_checked c
  rw [State.query, iter, error]
  exact ⟨rfl, tests⟩

variable [DenseSolver α]

/-- The checks of a course that ends at an acceptable level: one for every report, none of which
tells anything, and the one that ends it. -/
theorem Course.checks {obs : Observer α d ω} {left : Nat} {o o' : ω} {reports : List (State α σ d)}
    {ending : Except (Failure α) Status} (course : Course c obs left s o reports ending last o')
    (acceptable : ending = .ok .acceptableLevel) :
    s.termination.Ongoing (reports.map State.query) ∧
      (s.termination.after (reports.map State.query)).check last.query.errors last.query.iter =
        (some .acceptableLevel, last.termination) := by
  induction course with
  | spent | stopped | failed => cases acceptable
  | decided verdict =>
    cases acceptable
    exact ⟨trivial, Prod.ext verdict rfl⟩
  | @stepped left s s' last o o' o'' reports ending undecided answer step rest ih =>
    obtain ⟨asked, carried⟩ := s.reported_query c
    have moved : s'.termination = (s.termination.check s.query.errors s.query.iter).2 :=
      (advance_counted step).2.trans carried
    obtain ⟨going, told⟩ := ih acceptable
    rw [moved] at going told
    rw [List.map_cons, asked]
    exact ⟨⟨undecided, going⟩, told⟩

/-- The checks of a run that ends at an acceptable level end its first streak. -/
theorem Engine.acceptable_streak (e : Engine α σ d) (obs : Observer α d ω) (o : ω)
    (ended : (e.run obs o).1.status = .acceptableLevel) :
    ∃ first reports last, e.Follows obs o first reports (.ok .acceptableLevel) last ∧
      last.termination = ((Termination.ofInterior e.setup.settings).recordInitial
        first.query.errors).after (reports.map State.query ++ [last.query]) ∧
      (Termination.ofInterior e.setup.settings).FirstStreak
        (reports.map State.query ++ [last.query]) := by
  have regular : (e.run obs o).1.status.isFailure = false := by
    rw [ended]
    rfl
  obtain ⟨first, reports, last, follows⟩ := e.follows_of_regular regular
  rw [ended] at follows
  obtain ⟨o', course⟩ := follows.course
  have reference : (first.headed e.setup).termination =
      (Termination.ofInterior e.setup.settings).recordInitial first.query.errors := by
    obtain ⟨w, headed⟩ := first.headed_eq e.setup
    exact headed ▸ (termination_of_start follows.start :)
  obtain ⟨going, told⟩ := course.checks rfl
  rw [reference] at going told
  refine ⟨first, reports, last, follows, ?_, ?_⟩
  · rw [Termination.after_concat, told]
  · exact (going.firstStreak rfl (congrArg Prod.fst told)).of_reference

end Barrier

namespace Penalty

variable {c : Setup α σ d} {s t last : State α σ d}

/-- What the termination check of a major iteration is asked. -/
def State.query (s : State α σ d) : Termination.Query α := ⟨[s.errFeas, s.errOptim], s.iter⟩

omit [Scalar α] in
theorem State.recordIteration_query (s : State α σ d) (c : Setup α σ d) :
    (s.recordIteration c).query = s.query ∧
      (s.recordIteration c).termination = s.termination := by
  obtain ⟨w, recorded⟩ := s.recordIteration_eq c
  rw [recorded]
  exact ⟨rfl, rfl⟩

/-- A start that succeeds has checked its point with no reference, and takes its errors for the
reference afterwards. -/
theorem prepare_checks {verdict : Option Status} (h : (prepare c).outcome s = (.ok verdict, t)) :
    ((Termination.ofPenalty c.settings).check t.query.errors t.query.iter).1 = verdict ∧
      t.termination = (Termination.ofPenalty c.settings).recordInitial t.query.errors := by
  rw [outcome_prepare] at h
  dsimp only at h
  split at h
  · obtain ⟨s₁, w, -, rfl, rfl⟩ := settle_ok h
    exact ⟨rfl, rfl⟩
  · cases h

omit [Scalar α] in
theorem State.Touched.termination_eq (touched : s.Touched t) : t.termination = s.termination := by
  obtain ⟨_, _, _, _, _, rfl⟩ := touched
  rfl

theorem State.solved_termination (s : State α σ d) (res : SolveResult α (boxed d)) :
    (s.solved res).termination = s.termination := by
  unfold State.solved State.takeInner
  dsimp only
  split
  · split <;> rfl
  · split <;> rfl

variable [DenseSolver α]

/-- A major iteration that does not fail checks the errors it leaves, unless a failed subproblem has
ended the run. -/
theorem major_checks {verdict : Option Status} (h : (major c).outcome s = (.ok verdict, t)) :
    verdict = some .innerSolveFailed ∨
      s.termination.check t.query.errors t.query.iter = (verdict, t.termination) := by
  simp only [major, Step.outcome_bind_ok, Step.outcome_modify_bind] at h
  obtain ⟨status, s₁, solved, _, s₂, objective, _, s₃, errors, rest⟩ := h
  obtain ⟨res, w, -, -, rfl⟩ := solveSubproblem_ok solved
  have carried : s₃.termination = s.termination := by
    have evaluated : State.Evaluated c ({ s with world := w }.solved res) s₃ :=
      evaluated_of_outcomes objective errors
    exact evaluated.touched.termination_eq.trans (State.solved_termination _ res)
  rw [← carried]
  split at rest
  · cases rest
    exact .inl rfl
  · simp only [Step.outcome_get_bind, Step.outcome_set_bind] at rest
    split at rest
    · cases rest
      exact .inr rfl
    · rename_i undecided
      cases rest
      exact .inr (Prod.ext (Option.not_isSome_iff_eq_none.mp undecided) rfl)

/-- The checks of a course that ends at an acceptable level: one for every report but the first,
none of which tells anything, and the one that ends it. -/
theorem Course.checks {obs : Observer α d ω} {left : Nat} {o o' : ω} {reports : List (State α σ d)}
    {ending : Except (Failure α) Status} (course : Course c obs left s o reports ending last o')
    (acceptable : ending = .ok .acceptableLevel) :
    (∃ rest, reports = s.recordIteration c :: rest) ∧
      s.termination.Ongoing (reports.tail.map State.query) ∧
      (s.termination.after (reports.tail.map State.query)).check last.query.errors
        last.query.iter = (some .acceptableLevel, last.termination) := by
  induction course with
  | spent | stopped | failed => cases acceptable
  | @decided left s t o o' status answer step =>
    cases acceptable
    obtain ⟨⟨⟩⟩ | told := major_checks step
    rw [(s.recordIteration_query c).2] at told
    exact ⟨⟨_, rfl⟩, trivial, told⟩
  | @stepped left s t last o o' o'' reports ending answer step rest ih =>
    obtain ⟨⟨later, rfl⟩, going, told⟩ := ih acceptable
    obtain ⟨⟨⟩⟩ | checked := major_checks step
    rw [(s.recordIteration_query c).2] at checked
    have moved : t.termination = (s.termination.check t.query.errors t.query.iter).2 := by
      rw [checked]
    rw [List.tail_cons, moved] at going told
    rw [List.tail_cons, List.map_cons, (t.recordIteration_query c).1]
    exact ⟨⟨_, rfl⟩, ⟨congrArg Prod.fst checked, going⟩, told⟩

/-- The checks of a run that ends at an acceptable level, but for that of its starting point, end
their first streak, and so do all its checks where that of the starting point was not acceptable; or
the starting point ends the run, and one acceptable check was enough. -/
theorem Engine.acceptable_streak (e : Engine α σ d) (obs : Observer α d ω) (o : ω)
    (ended : (e.run obs o).1.status = .acceptableLevel) :
    ∃ reports last, e.Follows obs o reports .acceptableLevel last ∧
      ((reports = [] ∧ e.setup.settings.acceptableIterations = 1 ∧
          (Termination.ofPenalty e.setup.settings).acceptable last.query = true) ∨
        ∃ start later, reports = start :: later ∧
          last.termination = ((Termination.ofPenalty e.setup.settings).recordInitial
            start.query.errors).after (later.map State.query ++ [last.query]) ∧
          (Termination.ofPenalty e.setup.settings).FirstStreak
            (later.map State.query ++ [last.query]) ∧
          ((Termination.ofPenalty e.setup.settings).acceptable start.query = false →
            (Termination.ofPenalty e.setup.settings).FirstStreak
              (reports.map State.query ++ [last.query]))) := by
  obtain ⟨reports, status, last, follows⟩ := e.run_follows obs o
  obtain rfl : status = .acceptableLevel := by
    rw [← ended, follows.result]
    rfl
  refine ⟨reports, last, follows, ?_⟩
  generalize told : Status.acceptableLevel = status at follows
  cases follows.path with
  | @startFailed f t start =>
    cases f <;> cases told
  | startDecided start =>
    cases told
    have going : (Termination.ofPenalty e.setup.settings).Ongoing [] := trivial
    have streak := going.firstStreak rfl (prepare_checks start).1
    exact .inl ⟨rfl, streak.of_single⟩
  | @looped first last reports ending o' start course =>
    obtain ⟨status⟩ | ⟨status⟩ := ending
    · cases status <;> cases told
    · cases told
      obtain ⟨⟨later, rfl⟩, going, told⟩ := course.checks rfl
      rw [List.tail_cons, (prepare_checks start).2] at going told
      have streak := (going.firstStreak rfl (congrArg Prod.fst told)).of_reference
      refine .inr ⟨_, later, rfl, ?_, streak, streak.cons⟩
      rw [Termination.after_concat, (first.recordIteration_query e.setup).1, told]

end Penalty

open Termination in
/-- Termination checks in sequence and in runs.

After a reference has been recorded, a check that one of the first three tests decides tells that
test and changes nothing; an open one tells that the level is acceptable when the streak it ends is
as long as required, and otherwise nothing; and the count is the length of the streak.

A run of the interior point method that ends at an acceptable level has had its error acceptable at
as many checks in a row as required, the last of the run, and never before. So has a run of the
augmented Lagrangian method among its checks after that of the starting point, and among all its
checks where the error of the starting point was not acceptable; a run that this first check ends
required one. -/
theorem acceptable_level_ends_first_streak [DenseSolver α] :
    (∀ (t₀ : Termination α) (initial : List α) (qs : List (Query α)) (q : Query α),
      let t := t₀.recordInitial initial
      (∀ status, t.Decides q status →
        (t.after qs).check q.errors q.iter = (some status, t.after qs)) ∧
      (t.Open q → ((t.after qs).check q.errors q.iter).1 =
        if 0 < t.acceptableIterations ∧ t.acceptableIterations ≤ (t.streak (qs ++ [q])).length then
          some .acceptableLevel else none) ∧
      (t.after qs).acceptableCount = (t.streak qs).length) ∧
    (∀ {σ ω : Type} {d : Dims} (e : Barrier.Engine α σ d) (obs : Observer α d ω) (o : ω),
      (e.run obs o).1.status = .acceptableLevel →
      ∃ first reports last, e.Follows obs o first reports (.ok .acceptableLevel) last ∧
        last.termination = ((ofInterior e.setup.settings).recordInitial first.query.errors).after
          (reports.map Barrier.State.query ++ [last.query]) ∧
        (ofInterior e.setup.settings).FirstStreak
          (reports.map Barrier.State.query ++ [last.query])) ∧
    (∀ {σ ω : Type} {d : Dims} (e : Penalty.Engine α σ d) (obs : Observer α d ω) (o : ω),
      (e.run obs o).1.status = .acceptableLevel →
      ∃ reports last, e.Follows obs o reports .acceptableLevel last ∧
        ((reports = [] ∧ e.setup.settings.acceptableIterations = 1 ∧
            (ofPenalty e.setup.settings).acceptable last.query = true) ∨
          ∃ start later, reports = start :: later ∧
            last.termination = ((ofPenalty e.setup.settings).recordInitial
              start.query.errors).after (later.map Penalty.State.query ++ [last.query]) ∧
            (ofPenalty e.setup.settings).FirstStreak
              (later.map Penalty.State.query ++ [last.query]) ∧
            ((ofPenalty e.setup.settings).acceptable start.query = false →
              (ofPenalty e.setup.settings).FirstStreak
                (reports.map Penalty.State.query ++ [last.query])))) := by
  refine ⟨fun t₀ initial qs q => ?_, fun e obs o ended => ?_, fun e obs o ended => ?_⟩
  · have count := after_eq (t := t₀.recordInitial initial) rfl qs
    refine ⟨fun status decided => ?_, fun undecided => check_after rfl undecided, ?_⟩
    · rw [count]
      exact check_of_decides (decides_count_iff.mpr decided)
    · rw [count]
  · exact e.acceptable_streak obs o ended
  · exact e.acceptable_streak obs o ended

namespace Slope

open Barrier.Ray (line)
open Barrier.Edge (bounds bounds_of_raw)

/-- Minimize `x` over one free variable, from zero. -/
noncomputable def problem : Problem ℝ Unit line :=
  { Barrier.Edge.problem with
    objective := fun x _ => pure (.good (x.get ⟨0, Nat.one_pos⟩))
    gradient := fun _ _ => pure (.good (single 1)) }

theorem succeedsAt (x : Vector ℝ 1) : problem.SucceedsAt x where
  objective _ _ := rfl
  equalities _ _ := rfl
  inequalities _ _ := rfl
  gradient _ _ := rfl
  equalityJacobian _ _ := rfl
  inequalityJacobian _ _ := rfl

theorem grad_of_answers {e : Evaluation ℝ line} {v : Vector ℝ 1} (h : e.AnswersAt problem v) :
    e.grad.get (0 : Fin 1) = 1 := by
  rw [h.grad.eq_of_written rfl]
  rfl

theorem free (i : Fin 1) :
    (bounds.x.lower.get i).present = false ∧ (bounds.x.upper.get i).present = false := by
  rw [Subsingleton.elim i 0]
  exact ⟨rfl, rfl⟩

section Interior

/-- Default parameters, but a unit error is acceptable at once. -/
noncomputable def interiorSettings : InteriorSettings ℝ :=
  { (InteriorSettings.default : InteriorSettings ℝ) with
    acceptableTolerance := 2.0
    acceptableIterations := 1 }

noncomputable def interior : Barrier.Engine ℝ Unit line :=
  ⟨⟨problem, interiorSettings, bounds⟩, .initial interiorSettings true ⟨(), []⟩⟩

/-- The error is the size of the gradient. -/
theorem overall_eq (it : Iterate ℝ line) {e : Evaluation ℝ line} (grad : e.grad.get (0 : Fin 1) = 1)
    (mu pSmax : ℝ) : (Residual.compute it e bounds mu pSmax).nlpOverall = 1 := by
  have slope : infNorm (Block.pull bounds.x (e.lagrangianGradient it.yc it.yd) it.x.multLo
      it.x.multHi).toList = 1 := by
    refine (Penalty.Drift.infNorm_single _).trans ?_
    simp [Block.pull, bounds, pulled, Evaluation.lagrangianGradient, grad]
  have slackless (v : Vector ℝ 0) : infNorm v.toList = 0 := by
    simp [Vector.eq_empty, infNorm]
  have absent {n : ℕ} (v w : Vector ℝ n) {b : Vector (Bound ℝ) n}
      (free : ∀ i, (b.get i).present = false) :
      maskedComplementarity v.toList w.toList (b.toList.map (·.present)) 0 = 0 := by
    rw [maskedComplementarity, masked_zip_toList]
    simp [free]
  have complementary : complementarity it bounds 0 = 0 := by
    simp only [complementarity, Box.hasLower, Box.hasUpper]
    rw [absent _ _ fun i => (free i).1, absent _ _ fun i => (free i).2,
      absent _ _ fun i => i.elim0, absent _ _ fun i => i.elim0]
    simp
  have unscaled (total : ℝ) : multiplierScale pSmax total (line.m + bounds.count) = 1 := rfl
  have unbounded (total : ℝ) : multiplierScale pSmax total bounds.count = 1 := rfl
  simp only [Residual.compute, Residual.withBarrier, slope, slackless, complementary, unscaled,
    unbounded, div_one, maxNum_real]
  norm_num

variable [DenseSolver ℝ]

/-- The first check ends the run. -/
theorem interior_ended :
    (interior.run Observer.silent ()).1.status = .acceptableLevel := by
  obtain ⟨first, started⟩ := Barrier.startingProcedure_succeeds (c := interior.setup)
    (fun _ => rfl) (fun _ _ => succeedsAt _) interior.opened
  have counted := Barrier.Engine.iter_of_start started
  have coherent := Barrier.State.Coherent.of_start started
  have error : first.resid.nlpOverall = 1 := by
    rw [coherent.resid]
    exact overall_eq _ (grad_of_answers coherent.eval) _ _
  have verdict : (first.headed interior.setup).checked.1 = some .acceptableLevel := by
    obtain ⟨w, headed⟩ := first.headed_eq interior.setup
    obtain ⟨errors, count, tests⟩ := coherent.termination
    have undecided : first.termination.Open ⟨[1], 0⟩ := by
      rintro status (within | ⟨-, late⟩ | ⟨-, -, on, -⟩)
      · have small := within 1 (by simp)
        rw [tests] at small
        norm_num [Termination.ofInterior, interior, interiorSettings,
          InteriorSettings.default] at small
      · rw [tests] at late
        norm_num [Termination.ofInterior, interior, interiorSettings,
          InteriorSettings.default] at late
      · rw [tests] at on
        norm_num [Termination.ofInterior, interior, interiorSettings,
          InteriorSettings.default] at on
    have told := congrArg Prod.fst (Termination.check_of_open undecided)
    rw [headed, Barrier.State.checked]
    simp only [error, counted]
    refine told.trans (if_pos ?_)
    rw [tests]
    norm_num [Termination.ofInterior, interior, interiorSettings, Termination.nextCount,
      Termination.allWithin]
  have course : Barrier.Course interior.setup Observer.silent (interior.setup.settings.maxIter + 1)
      (first.headed interior.setup) () [] (.ok .acceptableLevel) _ () := .decided verdict
  exact (Barrier.Engine.Follows.of_course started course).status_eq

end Interior

open Penalty

/-- Default parameters, but a unit error is acceptable after two checks, and subproblems have no
budget. -/
noncomputable def settings : PenaltySettings ℝ :=
  { (PenaltySettings.default : PenaltySettings ℝ) with
    acceptableTolerance := 2.0
    acceptableIterations := 2
    inner := { (PenaltySettings.default : PenaltySettings ℝ).inner with maxIter := 0 } }

noncomputable def setup : Penalty.Setup ℝ Unit line := ⟨problem, settings⟩

noncomputable def engine : Penalty.Engine ℝ Unit line :=
  ⟨setup, .initial settings (.ofBounds bounds) ⟨(), []⟩⟩

theorem created :
    (Penalty.Engine.create problem settings).outcome ⟨(), []⟩ = (.ok engine, ⟨(), []⟩) := by
  have positive : ¬(settings.rho0 ≤ 0 ∨ (!isFinite settings.rho0) = true) := by
    norm_num [settings, PenaltySettings.default]
  have asked : (Bounds.ofProblem problem (.ofSettings settings.inner)).run () =
      (.ok bounds, ()) := by
    rw [← bounds_of_raw (.ofSettings settings.inner)]
    rfl
  exact Penalty.Engine.create_of_bounds positive rfl asked rfl

variable {s t : Penalty.State ℝ Unit line}

/-- Nothing is penalized, and the optimality error is the size of the gradient. -/
theorem measured_query {v : View ℝ line} (box : v.box = bounds.x)
    (measured : s.MeasuredWith setup v) : s.query.errors = [0, 1] := by
  obtain ⟨e, answers, -, feas, optim⟩ := measured
  have nothing : s.errFeas = 0 := by
    have none : s.penalty = #v[] := Vector.eq_empty
    rw [feas, none]
    rfl
  have slope : s.errOptim = 1 := by
    have entry : (v.projectedGradient s.z (v.meritGradient e s.penalty)).get (0 : Fin 1) = 1 := by
      rw [meritGradient_eq, View.projectedGradient, Vector.get_ofFn, clampTo, box,
        (free 0).1, (free 0).2]
      simp [grad_of_answers answers]
    refine optim.trans ((Drift.infNorm_single _).trans ?_)
    rw [entry, abs_one]
  rw [State.query, nothing, slope]

/-- A check of these errors decides nothing before the second in a row. -/
theorem check_unit {initial : List ℝ} (reference : initial = [] ∨ initial = [0, 1]) (n : ℕ)
    {iter : ℕ} (early : iter < 1000) :
    Termination.check { Termination.ofPenalty settings with
        initialErrors := initial, acceptableCount := n } [0, 1] iter =
      (if 2 ≤ n + 1 then some .acceptableLevel else none,
        { Termination.ofPenalty settings with
          initialErrors := initial, acceptableCount := n + 1 }) := by
  have undecided : Termination.Open { Termination.ofPenalty settings with
      initialErrors := initial, acceptableCount := n } ⟨[0, 1], iter⟩ := by
    rintro status (within | ⟨-, late⟩ | ⟨-, -, -, relative⟩)
    · have small := within 1 (by simp)
      norm_num [Termination.ofPenalty, settings, PenaltySettings.default] at small
    · exact absurd late (Nat.not_le.mpr early)
    · obtain rfl | rfl := reference
      · cases relative
      · have small := (List.forall₂_cons.mp (List.forall₂_cons.mp relative).2).1
        norm_num [Termination.ofPenalty, settings, PenaltySettings.default] at small
  have small : Termination.nextCount { Termination.ofPenalty settings with
      initialErrors := initial, acceptableCount := n } [0, 1] = n + 1 := by
    norm_num [Termination.nextCount, Termination.allWithin, Termination.ofPenalty, settings]
  rw [Termination.check_of_open (q := ⟨[0, 1], iter⟩) undecided, small]
  norm_num [Termination.ofPenalty, settings]

/-- A state of the loop after `n` checks of it: the variable is free, and every check has counted. -/
structure Going (n : ℕ) (s : Penalty.State ℝ Unit line) : Prop where
  free : s.view.box = bounds.x
  query : s.query = ⟨[0, 1], n⟩
  tests : s.termination = { Termination.ofPenalty settings with
    initialErrors := [0, 1], acceptableCount := n }

theorem Going.recordIteration {n : ℕ} (going : Going n s) :
    Going n (s.recordIteration setup) := by
  obtain ⟨w, recorded⟩ := s.recordIteration_eq setup
  rw [recorded]
  exact { going with }

theorem start_going : ∃ first,
    (prepare setup).outcome engine.opened = (.ok none, first) ∧ Going 0 first := by
  obtain ⟨verdict, first, settled⟩ := settle_succeeds (c := setup)
    (s := engine.opened.placed setup
      ((engine.opened.view.userStart problem engine.opened.z).run ()).1.2) (succeedsAt _)
  have start : (prepare setup).outcome engine.opened = (.ok verdict, first) := by
    rw [← settled, outcome_prepare]
    rfl
  obtain ⟨told, tests⟩ := prepare_checks start
  obtain ⟨box, counted, errors⟩ : first.view.box = bounds.x ∧ first.iter = 0 ∧
      first.query.errors = [0, 1] := by
    obtain ⟨s₁, w, evaluated, -, rfl⟩ := settle_ok settled
    have unit : s₁.query.errors = [0, 1] :=
      measured_query (View.ofBounds_box bounds) evaluated.measured
    obtain ⟨_, _, _, _, _, rfl⟩ := evaluated.touched
    exact ⟨View.ofBounds_box bounds, rfl, unit⟩
  obtain rfl : verdict = none := by
    have early : first.iter < 1000 := by omega
    rw [← told, errors]
    exact congrArg Prod.fst (check_unit (.inl rfl) 0 early)
  refine ⟨first, start, box, ?_, ?_⟩
  · rw [← errors, ← counted]
    rfl
  · rw [tests, errors]
    rfl

variable [DenseSolver ℝ]

/-- A major iteration leads to the same errors; its check ends the run when it is the second. -/
theorem Going.next {n : ℕ} (going : Going n s) (early : n + 1 < 1000) : ∃ t,
    (major setup).outcome s = (.ok (if 2 ≤ n + 1 then some .acceptableLevel else none), t) ∧
      Going (n + 1) t := by
  have free : s.view.box.Apart (.ofSettings settings.inner) := by
    rw [going.free]
    exact .of_free _ (fun i => (Slope.free i).1) fun i => (Slope.free i).2
  obtain ⟨w, found⟩ := innerResult_of_apart (c := setup) free one_ne_zero
    (show _ = Except.ok true from rfl)
  obtain ⟨verdict, t, ran⟩ := major_succeeds_of (c := setup) (s := s) (fun _ => rfl) (fun _ => rfl)
    (by rw [found]; nofun)
  obtain ⟨res, u, took, measured, ⟨-, -, stops, -⟩ | ⟨decided, left⟩⟩ := major_ok ran
  · cases stops
  · have counted : u.iter = n + 1 := took.iter.trans (congrArg (·.iter + 1) going.query)
    have unit : t.query = ⟨[0, 1], n + 1⟩ := by
      have same : t.query = u.query := by
        rw [left]
        split <;> rfl
      rw [same, ← counted, ← measured_query going.free measured]
      rfl
    obtain rfl | checked := major_checks ran
    · cases Termination.check_not_failure decided.symm
    · rw [unit, going.tests, check_unit (.inr rfl) n early] at checked
      obtain ⟨rfl, tests⟩ := Prod.mk.inj checked
      exact ⟨t, ran, (major_box ran).trans going.free, unit, tests.symm⟩

/-- The run reports its start and the state after one major iteration; the second ends it. All its
errors are the same. -/
theorem follows_two : ∃ r₀ r₁ last,
    engine.Follows Observer.silent () [r₀, r₁] .acceptableLevel last ∧
      r₀.query = ⟨[0, 1], 0⟩ ∧ r₁.query = ⟨[0, 1], 1⟩ ∧ last.query = ⟨[0, 1], 2⟩ := by
  obtain ⟨first, started, going₀⟩ := start_going
  obtain ⟨t, step₁, going₁⟩ := going₀.recordIteration.next (by norm_num)
  obtain ⟨last, step₂, going₂⟩ := going₁.recordIteration.next (by norm_num)
  obtain ⟨left, budget⟩ : ∃ left, engine.setup.settings.maxIter = left + 1 + 1 := ⟨998, rfl⟩
  have course : Penalty.Course engine.setup Observer.silent engine.setup.settings.maxIter first ()
      [first.recordIteration setup, t.recordIteration setup] (.ok .acceptableLevel) last () := by
    rw [budget]
    exact .stepped rfl step₁ (.decided rfl step₂)
  have follows := Penalty.Engine.Follows.of_course (e := engine) started course
  exact ⟨_, _, last, follows, going₀.recordIteration.query, going₁.recordIteration.query,
    going₂.query⟩

theorem ended : (engine.run Observer.silent ()).1.status = .acceptableLevel := by
  obtain ⟨r₀, r₁, last, follows, -⟩ := follows_two
  rw [follows.result]
  rfl

section Below

/-- Minimize `x` over `x ≥ 0`, from below. -/
noncomputable def belowProblem : Problem ℝ Unit line :=
  { problem with
    variableBounds := pure (.good (single 0, single 1e20))
    start := pure (.good (single (-1))) }

/-- One acceptable check is enough, and a unit error is not acceptable; subproblems have no budget
and leave the bound where it is. -/
noncomputable def belowSettings : PenaltySettings ℝ :=
  { settings with
    acceptableTolerance := 0.5
    acceptableIterations := 1
    inner := { settings.inner with boundRelaxFactor := 0 } }

noncomputable def belowSetup : Penalty.Setup ℝ Unit line := ⟨belowProblem, belowSettings⟩

noncomputable def belowEngine : Penalty.Engine ℝ Unit line :=
  ⟨belowSetup, .initial belowSettings (.ofBounds Barrier.Ray.bounds) ⟨(), []⟩⟩

omit [DenseSolver ℝ] in
/-- The optimality error is the way to the bound, up to one. -/
theorem measured_below {v : View ℝ line} (box : v.box = Barrier.Ray.bounds.x)
    (measured : s.MeasuredWith belowSetup v) :
    s.query.errors = [0, |s.z.get (0 : Fin 1) - max (s.z.get (0 : Fin 1) - 1) 0|] := by
  obtain ⟨e, answers, -, feas, optim⟩ := measured
  have slope : e.grad.get (0 : Fin 1) = 1 := by
    rw [answers.grad.eq_of_written rfl]
    rfl
  have nothing : s.errFeas = 0 := by
    have none : s.penalty = #v[] := Vector.eq_empty
    rw [feas, none]
    rfl
  have entry : (v.projectedGradient s.z (v.meritGradient e s.penalty)).get (0 : Fin 1) =
      s.z.get (0 : Fin 1) - max (s.z.get (0 : Fin 1) - 1) 0 := by
    have lower : v.box.lower.get (0 : Fin 1) = ⟨0, true⟩ := box ▸ Barrier.Ray.bounds_lower
    have upper : (v.box.upper.get (0 : Fin 1)).present = false := box ▸ Barrier.Ray.bounds_upper
    rw [meritGradient_eq, View.projectedGradient, Vector.get_ofFn, clampTo, slope, lower, upper]
    simp
  rw [State.query, nothing, optim, ← entry]
  exact congrArg (fun e => [0, e]) (Drift.infNorm_single _)

omit [DenseSolver ℝ] in
theorem below_succeedsAt (x : Vector ℝ 1) : belowProblem.SucceedsAt x where
  objective _ _ := rfl
  equalities _ _ := rfl
  inequalities _ _ := rfl
  gradient _ _ := rfl
  equalityJacobian _ _ := rfl
  inequalityJacobian _ _ := rfl

omit [DenseSolver ℝ] in
theorem below_apart : Barrier.Ray.bounds.x.Apart (.ofSettings belowSettings.inner) where
  lower i _ := by
    rw [Subsingleton.elim i 0, Barrier.Ray.bounds_lower]
    norm_num [isFiniteBound]
  upper i present := by
    rw [Subsingleton.elim i 0, Barrier.Ray.bounds_upper] at present
    cases present
  uncrossed i _ present := by
    rw [Subsingleton.elim i 0, Barrier.Ray.bounds_upper] at present
    cases present
  apart i _ present := by
    rw [Subsingleton.elim i 0, Barrier.Ray.bounds_upper] at present
    cases present

omit [DenseSolver ℝ] in
/-- The bound pushes the start of a subproblem to `0.01`. -/
theorem below_pushed {v : View ℝ line} (box : v.box = Barrier.Ray.bounds.x) :
    ((v.bounds.relax belowSettings.inner.boundRelaxFactor).x.pushInside belowSettings.inner.kappa1
      belowSettings.inner.kappa2 #v[-1]).get (0 : Fin 1) = 1 / 100 := by
  have unmoved : v.bounds.relax belowSettings.inner.boundRelaxFactor = v.bounds := by
    simp [Bounds.relax, belowSettings]
  have lower : v.bounds.x.lower.get (0 : Fin 1) = ⟨0, true⟩ := by
    simp [View.bounds, Box.told, Bound.told, box, Barrier.Ray.bounds_lower]
  have upper : (v.bounds.x.upper.get (0 : Fin 1)).present = false := by
    simp [View.bounds, Box.told, Bound.told, box, Barrier.Ray.bounds_upper]
  rw [unmoved, Box.pushInside, Vector.get_ofFn, pushInside, lower, upper]
  norm_num [belowSettings, settings, PenaltySettings.default, InteriorSettings.default, Vector.get]

/-- A subproblem without a budget gives the pushed start back. -/
theorem below_moves (box : s.view.box = Barrier.Ray.bounds.x) (start : s.view.start = #v[-1]) :
    ∃ res, innerResult belowSetup s = some res ∧ res.x.get (0 : Fin 1) = 1 / 100 := by
  obtain ⟨w, found⟩ := innerResult_of_apart (c := belowSetup) (box ▸ below_apart) one_ne_zero
    (show _ = Except.ok true from rfl)
  refine ⟨_, found, ?_⟩
  obtain ⟨first, started⟩ := Barrier.startingProcedure_succeeds
    (c := (s.view.engine belowProblem belowSettings.inner true w).setup) (fun _ => rfl)
    (fun _ _ => View.succeedsAt (below_succeedsAt _))
    (s.view.engine belowProblem belowSettings.inner true w).opened
  obtain ⟨reports, ending, last, follows⟩ := Barrier.Engine.run_follows Observer.silent () started
  have stays := follows.x_eq.trans (follows.point_of_no_budget rfl)
  obtain ⟨x0, e, y, w', given, -, rfl⟩ := Barrier.startingProcedure_ok started
  obtain rfl : x0 = #v[-1] := (Answered.eq_of_written rfl ⟨_, given⟩ : x0 = s.view.start).trans start
  exact (congrArg (·.get (0 : Fin 1)) stays).trans (below_pushed box)

omit [DenseSolver ℝ] in
/-- The check of the start is undecided. -/
theorem below_start : ∃ first, (prepare belowSetup).outcome belowEngine.opened = (.ok none, first) ∧
    first.view.box = Barrier.Ray.bounds.x ∧ first.view.start = #v[-1] ∧
    first.query = ⟨[0, 1], 0⟩ ∧
    first.termination = (Termination.ofPenalty belowSettings).recordInitial [0, 1] := by
  have point : ((belowEngine.opened.view.userStart belowProblem belowEngine.opened.z).run ()).1.2 =
      #v[-1] := Drift.single_ext (get_append_castAdd _ _ (0 : Fin 1))
  obtain ⟨verdict, first, settled⟩ := settle_succeeds (c := belowSetup)
    (s := belowEngine.opened.placed belowSetup #v[-1]) (below_succeedsAt _)
  have start : (prepare belowSetup).outcome belowEngine.opened = (.ok verdict, first) := by
    rw [← settled, ← point, outcome_prepare]
    rfl
  obtain ⟨told, tests⟩ := prepare_checks start
  obtain ⟨box, here, asked⟩ : first.view.box = Barrier.Ray.bounds.x ∧
      first.view.start = #v[-1] ∧ first.query = ⟨[0, 1], 0⟩ := by
    obtain ⟨s₁, w, evaluated, -, rfl⟩ := settle_ok settled
    have errors := measured_below (View.ofBounds_box _) evaluated.measured
    obtain ⟨_, _, _, _, _, rfl⟩ := evaluated.touched
    have unit : |(-1 : ℝ) - max (-1 - 1) 0| = 1 := by norm_num
    exact ⟨View.ofBounds_box _, rfl,
      congrArg (Termination.Query.mk · 0) (errors.trans (congrArg (fun e => [0, e]) unit))⟩
  rw [asked] at told tests
  obtain rfl : verdict = none := by
    rw [← told]
    apply Termination.check_none <;>
      norm_num [Termination.allWithin, Termination.ofPenalty, Termination.relativelySmall,
        belowSetup, belowSettings, settings, PenaltySettings.default]
  exact ⟨first, start, box, here, asked, tests⟩

/-- One subproblem is enough: its check finds the level acceptable. -/
theorem below_follows : ∃ first last, belowEngine.Follows Observer.silent ()
    [State.recordIteration first belowSetup] .acceptableLevel last ∧
    (first.recordIteration belowSetup).query = ⟨[0, 1], 0⟩ := by
  obtain ⟨first, started, box, here, asked, tests⟩ := below_start
  have kept := first.recordIteration_view belowSetup
  have reported := first.recordIteration_query belowSetup
  obtain ⟨res, found, moved⟩ := below_moves (kept.symm ▸ box) (kept.symm ▸ here)
  obtain ⟨verdict, t, ran⟩ := major_succeeds_of (c := belowSetup)
    (s := first.recordIteration belowSetup) (fun _ => rfl) (fun _ => rfl) (by rw [found]; nofun)
  obtain ⟨res', u, took, measured, ⟨-, -, stops, -⟩ | ⟨decided, left⟩⟩ := major_ok ran
  · cases stops
  · obtain rfl : res' = res := Option.some.inj (took.found.symm.trans found)
    have errors := measured_below (kept ▸ box) measured
    have here : u.z.get (0 : Fin 1) = 1 / 100 := by
      rw [took.z, if_pos (allFinite_real _), moved]
    have query : u.query = ⟨[0, 1 / 100], 1⟩ := by
      have counted : u.iter = 1 := took.iter.trans (congrArg (·.iter + 1) (reported.1.trans asked))
      have small : |(1 : ℝ) / 100 - max (1 / 100 - 1) 0| = 1 / 100 := by norm_num
      rw [here, small] at errors
      rw [← errors, ← counted]
      rfl
    have same : t.query = u.query := by
      rw [left]
      split <;> rfl
    obtain rfl | checked := major_checks ran
    · cases Termination.check_not_failure decided.symm
    · rw [same, query, reported.2, tests] at checked
      have undecided : ((Termination.ofPenalty belowSettings).recordInitial [0, 1]).Open
          ⟨[0, 1 / 100], 1⟩ := by
        rintro status (within | ⟨-, late⟩ | ⟨-, -, -, relative⟩)
        · have small := within (1 / 100) (by simp)
          norm_num [Termination.recordInitial, Termination.ofPenalty, belowSettings, settings,
            PenaltySettings.default] at small
        · exact absurd late (by decide)
        · have small := (List.forall₂_cons.mp (List.forall₂_cons.mp relative).2).1
          norm_num [Termination.recordInitial, Termination.ofPenalty, belowSettings, settings,
            PenaltySettings.default] at small
      obtain rfl : some .acceptableLevel = verdict := by
        refine Eq.trans ?_ ((Termination.check_of_open undecided).symm.trans checked |>
          congrArg Prod.fst)
        rw [if_pos]
        norm_num [Termination.recordInitial, Termination.ofPenalty, belowSettings, settings,
          Termination.nextCount, Termination.allWithin]
      have course : Penalty.Course belowSetup Observer.silent belowSettings.maxIter first ()
          [first.recordIteration belowSetup] (.ok .acceptableLevel) t () := .decided rfl ran
      exact ⟨first, t, Penalty.Engine.Follows.of_course (e := belowEngine) started course,
        reported.1.trans asked⟩

end Below

end Slope

open scoped Linear.Exact

/-- Both methods end at an acceptable level on a slope: one at its first check, the other at the
second check after that of its starting point. From below the bound, where the error of the starting
point is not acceptable, the check of the first subproblem ends the first streak of all. -/
theorem slope_ends_first_streak :
    ((Slope.interior.run Observer.silent ()).1.status = .acceptableLevel ∧
      ∃ first reports last,
        Slope.interior.Follows Observer.silent () first reports (.ok .acceptableLevel) last ∧
        (Termination.ofInterior Slope.interiorSettings).FirstStreak
          (reports.map Barrier.State.query ++ [last.query])) ∧
    ((Slope.engine.run Observer.silent ()).1.status = .acceptableLevel ∧
      ∃ start later last,
        Slope.engine.Follows Observer.silent () (start :: later) .acceptableLevel last ∧
        (Termination.ofPenalty Slope.settings).FirstStreak
          (later.map Penalty.State.query ++ [last.query])) ∧
    ((Slope.belowEngine.run Observer.silent ()).1.status = .acceptableLevel ∧
      ∃ start later last,
        Slope.belowEngine.Follows Observer.silent () (start :: later) .acceptableLevel last ∧
        (Termination.ofPenalty Slope.belowSettings).acceptable start.query = false ∧
        (Termination.ofPenalty Slope.belowSettings).FirstStreak
          ((start :: later).map Penalty.State.query ++ [last.query])) := by
  obtain ⟨-, interior, penalty⟩ := acceptable_level_ends_first_streak (α := ℝ)
  refine ⟨⟨Slope.interior_ended, ?_⟩, ⟨Slope.ended, ?_⟩, ?_⟩
  · obtain ⟨first, reports, last, follows, -, streak⟩ :=
      interior Slope.interior Observer.silent () Slope.interior_ended
    exact ⟨first, reports, last, follows, streak⟩
  · obtain ⟨reports, last, follows, ⟨-, one, -⟩ | ⟨start, later, rfl, -, streak, -⟩⟩ :=
      penalty Slope.engine Observer.silent () Slope.ended
    · cases one
    · exact ⟨start, later, last, follows, streak⟩
  · obtain ⟨first, last₀, follows₀, asked⟩ := Slope.below_follows
    have ended : (Slope.belowEngine.run Observer.silent ()).1.status = .acceptableLevel :=
      congrArg (·.status) follows₀.result
    refine ⟨ended, ?_⟩
    obtain ⟨reports, last, follows, alternatives⟩ :=
      penalty Slope.belowEngine Observer.silent () ended
    obtain ⟨rfl, -, rfl⟩ := follows₀.path.unique follows.path
    obtain ⟨⟨⟩, -⟩ | ⟨start, later, split, -, -, counted⟩ := alternatives
    obtain ⟨rfl, rfl⟩ := List.cons.inj split
    have large : (Termination.ofPenalty Slope.belowSettings).acceptable
        (first.recordIteration Slope.belowSetup).query = false := by
      rw [asked]
      norm_num [Termination.acceptable, Termination.allWithin, Termination.ofPenalty,
        Slope.belowSettings]
    exact ⟨_, [], last, follows, large, counted large⟩

/-- There the augmented Lagrangian run has three checks in a row with acceptable errors, the first
at its starting point, where two are required: counted from the starting point, its last two checks
are not the first streak. -/
theorem slope_counts_start_apart :
    (Penalty.Engine.create Slope.problem Slope.settings).outcome ⟨(), []⟩ =
      (.ok Slope.engine, ⟨(), []⟩) ∧
    (Slope.engine.run Observer.silent ()).1.status = .acceptableLevel ∧
    ∃ reports last, Slope.engine.Follows Observer.silent () reports .acceptableLevel last ∧
      ¬(Termination.ofPenalty Slope.settings).FirstStreak
        (reports.map Penalty.State.query ++ [last.query]) := by
  obtain ⟨r₀, r₁, last, follows, query₀, query₁, query₂⟩ := Slope.follows_two
  refine ⟨Slope.created, Slope.ended, [r₀, r₁], last, follows, fun streak => ?_⟩
  have acceptable (iter : ℕ) :
      (Termination.ofPenalty Slope.settings).acceptable ⟨[0, 1], iter⟩ = true := by
    norm_num [Termination.acceptable, Termination.allWithin, Termination.ofPenalty, Slope.settings]
  have all : ([r₀, r₁].map Penalty.State.query ++ [last.query]).rtakeWhile
      (Termination.ofPenalty Slope.settings).acceptable =
        [r₀, r₁].map Penalty.State.query ++ [last.query] := by
    rw [List.rtakeWhile_eq_self_iff]
    simp [query₀, query₁, query₂, acceptable]
  have reached := streak.reached
  rw [all] at reached
  cases reached

end SmoothOpt
