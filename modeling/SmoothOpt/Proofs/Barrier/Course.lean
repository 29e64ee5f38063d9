import SmoothOpt.Proofs.Barrier.Advance
import SmoothOpt.Proofs.Termination

/-!
The course of a run: the states reported to the observer, how the main loop ended, and the state it
left.

`Course` lists what the passes of the main loop can do, one constructor for each way a pass can go,
and `passes_course` shows that the loop does nothing else. What holds of every report and of every
exit follows from what one pass preserves: `Course.reports_hold` and `Course.exit_holds` carry a
property of a state and of the reports before it along the whole course. `Engine.run_follows` ties a
run to its course.
-/
namespace SmoothOpt.Barrier

open Scalar Linear

variable {α σ ω : Type} [Scalar α] {d : Dims}

namespace State

/-- The termination check of a pass: its verdict and the state with the updated counter. -/
def checked (s : State α σ d) : Option Status × State α σ d :=
  let verdict := s.termination.check [s.resid.nlpOverall] s.iter
  (verdict.1, { s with termination := verdict.2 })

/-- The state a pass reports to the observer when the check does not end the run. -/
def reported (s : State α σ d) (c : Setup α σ d) : State α σ d := s.checked.2.updateBarrier c

/-- The state before the main loop: the header of the log is written. -/
def headed (s : State α σ d) (c : Setup α σ d) : State α σ d :=
  (s.recordFrom c 2 .interiorHeader).recordFrom c 2 .interiorRule

theorem headed_eq (s : State α σ d) (c : Setup α σ d) :
    ∃ w, s.headed c = { s with world := w } := by
  obtain ⟨w₁, header⟩ := s.recordFrom_eq c 2 .interiorHeader
  obtain ⟨w₂, rule⟩ := recordFrom_eq { s with world := w₁ } c 2 .interiorRule
  rw [headed, header]
  exact ⟨w₂, rule⟩

end State

namespace Engine

/-- The state the starting procedure of a run works on. -/
def opened (e : Engine α σ d) : State α σ d :=
  let s := { e.state with status := .pending, iter := 0, alphaPrimal := 0, alphaDual := 0 }
  s.recordFrom e.setup 1 (.interiorStarted d e.setup.bounds.count s.curvature.isExact)

theorem opened_eq (e : Engine α σ d) : ∃ w, e.opened =
    { e.state with
      world := w, status := .pending, iter := 0, alphaPrimal := 0, alphaDual := 0 } :=
  State.recordFrom_eq
    { e.state with status := .pending, iter := 0, alphaPrimal := 0, alphaDual := 0 } e.setup 1
    (.interiorStarted d e.setup.bounds.count e.state.curvature.isExact)

theorem opened_filter (e : Engine α σ d) : e.opened.filter = e.state.filter := by
  obtain ⟨w, opened⟩ := e.opened_eq
  rw [opened]

end Engine

variable [DenseSolver α]

/-- Passes of the main loop from a state, with the states reported on the way. -/
inductive Course (c : Setup α σ d) (obs : Observer α d ω) :
    Nat → State α σ d → ω → List (State α σ d) → Except (Failure α) Status → State α σ d → ω → Prop
  | spent (s : State α σ d) (o : ω) : Course c obs 0 s o [] (.ok .maxIterExceeded) s o
  | decided {left : Nat} {s : State α σ d} {o : ω} {status : Status}
      (verdict : s.checked.1 = some status) :
      Course c obs (left + 1) s o [] (.ok status) s.checked.2 o
  | stopped {left : Nat} {s : State α σ d} {o o' : ω} (undecided : s.checked.1 = none)
      (answer : obs.onIteration ((s.reported c).info c) o = (true, o')) :
      Course c obs (left + 1) s o [s.reported c] (.ok .userStopped) (s.reported c) o'
  | failed {left : Nat} {s s' : State α σ d} {o o' : ω} {f : Failure α}
      (undecided : s.checked.1 = none)
      (answer : obs.onIteration ((s.reported c).info c) o = (false, o'))
      (step : (advance c).outcome (s.reported c) = (.error f, s')) :
      Course c obs (left + 1) s o [s.reported c] (.error f) s' o'
  | stepped {left : Nat} {s s' last : State α σ d} {o o' o'' : ω} {reports : List (State α σ d)}
      {ending : Except (Failure α) Status} (undecided : s.checked.1 = none)
      (answer : obs.onIteration ((s.reported c).info c) o = (false, o'))
      (step : (advance c).outcome (s.reported c) = (.ok (), s'))
      (rest : Course c obs left s' o' reports ending last o'') :
      Course c obs (left + 1) s o (s.reported c :: reports) ending last o''

variable {c : Setup α σ d} {obs : Observer α d ω}

/-- A pass in terms of the state it checks and the state it reports. -/
theorem outcome_pass (s : State α σ d) (o : ω) :
    (pass c obs).outcome (s, o) =
      (match s.checked.1 with
        | some status => set (s.checked.2, o) >>= fun _ => pure (some status)
        | none => set (s.reported c, (obs.onIteration ((s.reported c).info c) o).2) >>= fun _ =>
          if (obs.onIteration ((s.reported c).info c) o).1 then pure (some .userStopped)
          else (advance c).within (·.1) (fun s (_, o) => (s, o)) id >>= fun _ => pure none :
        Step (Failure α) (State α σ d × ω) (Option Status)).outcome (s, o) := by
  rw [pass, Step.outcome_get_bind]
  rfl

theorem outcome_pass_decided {s : State α σ d} {o : ω} {status : Status}
    (verdict : s.checked.1 = some status) :
    (pass c obs).outcome (s, o) = (.ok (some status), (s.checked.2, o)) := by
  rw [outcome_pass, verdict]
  simp only [Step.outcome_set_bind, Step.outcome_pure]

theorem outcome_pass_stopped {s : State α σ d} {o o' : ω} (undecided : s.checked.1 = none)
    (answer : obs.onIteration ((s.reported c).info c) o = (true, o')) :
    (pass c obs).outcome (s, o) = (.ok (some .userStopped), (s.reported c, o')) := by
  rw [outcome_pass, undecided, answer]
  simp only [Step.outcome_set_bind, if_true, Step.outcome_pure]

theorem outcome_pass_failed {s s' : State α σ d} {o o' : ω} {f : Failure α}
    (undecided : s.checked.1 = none)
    (answer : obs.onIteration ((s.reported c).info c) o = (false, o'))
    (step : (advance c).outcome (s.reported c) = (.error f, s')) :
    (pass c obs).outcome (s, o) = (.error f, (s', o')) := by
  rw [outcome_pass, undecided, answer]
  simp only [Step.outcome_set_bind, Bool.false_eq_true, if_false]
  rw [Step.outcome_bind_error, Step.outcome_within_error]
  exact .inl ⟨f, s', step, rfl, rfl⟩

theorem outcome_pass_stepped {s s' : State α σ d} {o o' : ω} (undecided : s.checked.1 = none)
    (answer : obs.onIteration ((s.reported c).info c) o = (false, o'))
    (step : (advance c).outcome (s.reported c) = (.ok (), s')) :
    (pass c obs).outcome (s, o) = (.ok none, (s', o')) := by
  rw [outcome_pass, undecided, answer]
  simp only [Step.outcome_set_bind, Bool.false_eq_true, if_false]
  rw [Step.outcome_bind_ok]
  exact ⟨(), (s', o'), Step.outcome_within_ok.mpr ⟨s', step, rfl⟩, rfl⟩

/-- The main loop follows a course. -/
theorem passes_course (left : Nat) : ∀ (s : State α σ d) (o : ω)
    {ending : Except (Failure α) Status} {last : State α σ d} {o' : ω},
    (passes c obs left).outcome (s, o) = (ending, (last, o')) →
      ∃ reports, Course c obs left s o reports ending last o' := by
  induction left with
  | zero =>
    intro s o ending last o' h
    simp only [passes, Step.outcome_pure, Prod.mk.injEq] at h
    obtain ⟨rfl, rfl, rfl⟩ := h
    exact ⟨[], .spent s o⟩
  | succ left ih =>
    intro s o ending last o' h
    rw [passes, Step.outcome_bind] at h
    cases verdict : s.checked.1 with
    | some status =>
      simp only [outcome_pass_decided verdict, Step.outcome_pure, Prod.mk.injEq] at h
      obtain ⟨rfl, rfl, rfl⟩ := h
      exact ⟨[], .decided verdict⟩
    | none =>
      rcases answer : obs.onIteration ((s.reported c).info c) o with ⟨_ | _, o₁⟩
      · rcases step : (advance c).outcome (s.reported c) with ⟨f | _, s₂⟩
        · simp only [outcome_pass_failed verdict answer step, Prod.mk.injEq] at h
          obtain ⟨rfl, rfl, rfl⟩ := h
          exact ⟨_, .failed verdict answer step⟩
        · simp only [outcome_pass_stepped verdict answer step] at h
          obtain ⟨reports, rest⟩ := ih s₂ o₁ h
          exact ⟨_, .stepped verdict answer step rest⟩
      · simp only [outcome_pass_stopped verdict answer, Step.outcome_pure, Prod.mk.injEq] at h
        obtain ⟨rfl, rfl, rfl⟩ := h
        exact ⟨_, .stopped verdict answer⟩

/-- There is only one course: the loop does what it says. -/
theorem Course.outcome_passes {left : Nat} {s last : State α σ d} {o o' : ω}
    {reports : List (State α σ d)} {ending : Except (Failure α) Status}
    (course : Course c obs left s o reports ending last o') :
    (passes c obs left).outcome (s, o) = (ending, (last, o')) := by
  induction course with
  | spent => rfl
  | decided verdict =>
    rw [passes, Step.outcome_bind, outcome_pass_decided verdict]
    rfl
  | stopped undecided answer =>
    rw [passes, Step.outcome_bind, outcome_pass_stopped undecided answer]
    rfl
  | failed undecided answer step =>
    rw [passes, Step.outcome_bind, outcome_pass_failed undecided answer step]
  | stepped undecided answer step rest ih =>
    rw [passes, Step.outcome_bind, outcome_pass_stepped undecided answer step]
    exact ih

/-- Two courses from one state are the same. -/
theorem Course.unique {left : Nat} {s last : State α σ d} {o o' : ω}
    {reports : List (State α σ d)} {ending : Except (Failure α) Status}
    (course : Course c obs left s o reports ending last o') :
    ∀ {reports' : List (State α σ d)} {ending' : Except (Failure α) Status} {last' : State α σ d}
      {o'' : ω}, Course c obs left s o reports' ending' last' o'' →
        reports' = reports ∧ ending' = ending ∧ last' = last := by
  induction course with
  | spent =>
    intro _ _ _ _ other
    cases other
    exact ⟨rfl, rfl, rfl⟩
  | decided verdict =>
    intro _ _ _ _ other
    cases other <;> simp_all
  | stopped undecided answer =>
    intro _ _ _ _ other
    cases other <;> simp_all
  | failed undecided answer step =>
    intro _ _ _ _ other
    cases other <;> simp_all
  | stepped undecided answer step rest ih =>
    intro _ _ _ _ other
    cases other with
    | decided verdict => simp_all
    | stopped _ answer' => simp_all
    | failed _ answer' step' => simp_all
    | stepped _ answer' step' rest' =>
      obtain ⟨-, rfl⟩ := Prod.mk.inj (answer.symm.trans answer')
      obtain ⟨-, rfl⟩ := Prod.mk.inj (step.symm.trans step')
      obtain ⟨rfl, rfl, rfl⟩ := ih rest'
      exact ⟨rfl, rfl, rfl⟩

section Induction

/-- A property of the reports made so far and of the current state that a pass preserves. -/
structure Preserved (c : Setup α σ d) (P : List (State α σ d) → State α σ d → Prop) : Prop where
  check : ∀ before s, P before s → P before s.checked.2
  report : ∀ before s, P before s → P before (s.reported c)
  step : ∀ before s s', P before s → (advance c).outcome s = (.ok (), s') → P (before ++ [s]) s'

variable {P : List (State α σ d) → State α σ d → Prop}

/-- What passes preserve holds of every report and of the reports before it. -/
theorem Course.reports_hold (preserved : Preserved c P) {left : Nat} {s last : State α σ d}
    {o o' : ω} {reports : List (State α σ d)} {ending : Except (Failure α) Status}
    (course : Course c obs left s o reports ending last o') :
    ∀ before, P before s → ∀ init r rest, reports = init ++ r :: rest → P (before ++ init) r := by
  induction course with
  | spent | decided =>
    intro before _ init r rest cut
    simp at cut
  | stopped | failed =>
    intro before holds init r rest cut
    cases init with
    | nil =>
      obtain ⟨rfl, -⟩ := List.cons_eq_cons.mp cut
      rw [List.append_nil]
      exact preserved.report _ _ holds
    | cons _ init => simp at cut
  | stepped undecided answer step rest ih =>
    intro before holds init r rest cut
    have reported := preserved.report _ _ holds
    cases init with
    | nil =>
      obtain ⟨rfl, -⟩ := List.cons_eq_cons.mp cut
      rw [List.append_nil]
      exact reported
    | cons r₀ init =>
      obtain ⟨rfl, tail⟩ := List.cons_eq_cons.mp cut
      rw [List.append_cons]
      exact ih _ (preserved.step _ _ _ reported step) _ _ _ tail

/-- How a course ends: no pass was left; the check of a pass decided; the observer stopped at the
last report; or an iteration failed from the last report. Of the state it ended in, and of the
reports before that, `P` holds. -/
inductive Exit (c : Setup α σ d) (P : List (State α σ d) → State α σ d → Prop) :
    List (State α σ d) → Except (Failure α) Status → State α σ d → Prop
  | spent {reports : List (State α σ d)} {last : State α σ d} (holds : P reports last) :
      Exit c P reports (.ok .maxIterExceeded) last
  | decided {reports : List (State α σ d)} {s : State α σ d} {status : Status}
      (holds : P reports s) (verdict : s.checked.1 = some status) :
      Exit c P reports (.ok status) s.checked.2
  | stopped {init : List (State α σ d)} {last : State α σ d} (holds : P init last) :
      Exit c P (init ++ [last]) (.ok .userStopped) last
  | failed {init : List (State α σ d)} {r last : State α σ d} {f : Failure α} (holds : P init r)
      (step : (advance c).outcome r = (.error f, last)) :
      Exit c P (init ++ [r]) (.error f) last

/-- What passes preserve holds at the exit. -/
theorem Course.exit_holds (preserved : Preserved c P) {left : Nat} {s last : State α σ d}
    {o o' : ω} {reports : List (State α σ d)} {ending : Except (Failure α) Status}
    (course : Course c obs left s o reports ending last o') :
    ∀ before, P before s → Exit c P (before ++ reports) ending last := by
  induction course with
  | spent =>
    intro before holds
    rw [List.append_nil]
    exact .spent holds
  | decided verdict =>
    intro before holds
    rw [List.append_nil]
    exact .decided holds verdict
  | stopped =>
    intro before holds
    exact .stopped (preserved.report _ _ holds)
  | failed undecided answer step =>
    intro before holds
    exact .failed (preserved.report _ _ holds) step
  | stepped undecided answer step rest ih =>
    intro before holds
    rw [List.append_cons]
    exact ih _ (preserved.step _ _ _ (preserved.report _ _ holds) step)

end Induction

/-- What an observer remembers after it has seen the states `reports`. -/
def remembered (c : Setup α σ d) (obs : Observer α d ω) (reports : List (State α σ d))
    (o : ω) : ω :=
  reports.foldl (fun o r => (obs.onIteration (r.info c) o).2) o

/-- The reports are what the observer is told, in order, and it is told nothing else. -/
theorem Course.observer {left : Nat} {s last : State α σ d} {o o' : ω}
    {reports : List (State α σ d)} {ending : Except (Failure α) Status}
    (course : Course c obs left s o reports ending last o') :
    o' = remembered c obs reports o := by
  induction course with
  | spent | decided => rfl
  | stopped undecided answer | failed undecided answer step =>
    exact (congrArg Prod.snd answer).symm
  | stepped undecided answer step rest ih =>
    rw [ih, remembered, remembered, List.foldl_cons, answer]

/-- A loop that ends without a failure of an iteration ends with a status that is no failure. -/
theorem Course.ending_ok {left : Nat} {s last : State α σ d} {o o' : ω}
    {reports : List (State α σ d)} {status : Status}
    (course : Course c obs left s o reports (.ok status) last o') : status.isFailure = false := by
  generalize same : Except.ok status = ending at course
  induction course with
  | spent =>
    cases same
    rfl
  | decided verdict =>
    cases same
    exact Termination.check_not_failure verdict
  | stopped =>
    cases same
    rfl
  | failed => cases same
  | stepped undecided answer step rest ih => exact ih same

omit [Scalar α] [DenseSolver α] in
theorem isFailure_statusOf (cause : Failure α) : (statusOf cause).isFailure = true := by
  cases cause <;> rfl

def startStatus : Failure α → Status
  | .evaluation _ => .errorInEvaluation
  | _ => .incompleteInit

/-- The status an ending of the main loop gives the run. -/
def endingStatus : Except (Failure α) Status → Status
  | .ok status => status
  | .error cause => statusOf cause

namespace Engine

/-- A run whose start succeeded: the starting procedure leaves `first`, the main loop reports the
states `reports`, ends as `ending` says and leaves `last`, and the run gives its result. The
observer is told the reports and the result. -/
structure Follows (e : Engine α σ d) (obs : Observer α d ω) (o : ω) (first : State α σ d)
    (reports : List (State α σ d)) (ending : Except (Failure α) Status) (last : State α σ d) :
    Prop where
  start : (startingProcedure e.setup).outcome e.opened = (.ok (), first)
  course : ∃ o', Course e.setup obs (e.setup.settings.maxIter + 1) (first.headed e.setup) o reports
    ending last o'
  result : (e.run obs o).1 = { last with status := endingStatus ending }.result
  state : ∃ w, (e.run obs o).2.1.state = { last with world := w, status := endingStatus ending }
  observer : (e.run obs o).2.2 = obs.onSolution (e.run obs o).1 (remembered e.setup obs reports o)

end Engine

theorem iterations_course {s last : State α σ d} {o o' : ω}
    {ending : Except (Failure α) Status}
    (h : (iterations c obs).outcome (s, o) = (ending, (last, o'))) :
    ∃ reports, Course c obs (c.settings.maxIter + 1) (s.headed c) o reports ending last o' := by
  rw [iterations, Step.outcome_modify_bind] at h
  exact passes_course _ _ _ h

namespace Engine

variable {e : Engine α σ d} {o : ω}

/-- The result and the state of a run, from the status and the state its loop leaves. -/
theorem run_of_outcome {status : Status} {last : State α σ d} {o' : ω}
    (h : outcome e.setup obs e.opened o = (status, last, o')) :
    (e.run obs o).1 = { last with status := status }.result ∧
      (∃ w, (e.run obs o).2.1.state = { last with world := w, status := status }) ∧
      (e.run obs o).2.2 = obs.onSolution (e.run obs o).1 o' := by
  have unfolded : e.run obs o =
      let s := { (outcome e.setup obs e.opened o).2.1 with
        status := (outcome e.setup obs e.opened o).1 }
      let finished := s.recordFrom e.setup 1
        (.interiorFinished s.status s.iter s.result.obj s.resid.nlpOverall)
      (s.result, { e with state := finished },
        obs.onSolution s.result (outcome e.setup obs e.opened o).2.2) := rfl
  rw [unfolded, h]
  refine ⟨rfl, ?_, rfl⟩
  obtain ⟨w, recorded⟩ := State.recordFrom_eq { last with status := status } e.setup 1
    (.interiorFinished status last.iter last.eval.f last.resid.nlpOverall)
  exact ⟨w, recorded⟩

/-- A run whose start succeeds gives the ending of its main loop. -/
theorem run_of_iterations {obs : Observer α d ω} {first last : State α σ d} {o' : ω}
    {ending : Except (Failure α) Status}
    (start : (startingProcedure e.setup).outcome e.opened = (.ok (), first))
    (looped : (iterations e.setup obs).outcome (first, o) = (ending, (last, o'))) :
    (e.run obs o).1 = { last with status := endingStatus ending }.result ∧
      (∃ w, (e.run obs o).2.1.state = { last with world := w, status := endingStatus ending }) ∧
      (e.run obs o).2.2 = obs.onSolution (e.run obs o).1 o' := by
  cases ending with
  | ok status =>
    have ran : outcome e.setup obs e.opened o = (status, last, o') := by
      simp only [outcome, start, looped]
    exact run_of_outcome ran
  | error cause =>
    have ran : outcome e.setup obs e.opened o =
        (statusOf cause, (last.stopped e.setup cause).2, o') := by
      simp only [outcome, start, looped, State.stopped]
    obtain ⟨result, ⟨w, state⟩, observer⟩ := run_of_outcome ran
    obtain ⟨w', recorded⟩ := State.recordFrom_eq last e.setup 1 (.interiorStopped last.iter cause)
    have stopped : (last.stopped e.setup cause).2 = { last with world := w' } := recorded
    rw [stopped] at result state
    exact ⟨result, ⟨w, state⟩, observer⟩

/-- A run whose start succeeds follows a course. -/
theorem run_follows (obs : Observer α d ω) (o : ω) {first : State α σ d}
    (start : (startingProcedure e.setup).outcome e.opened = (.ok (), first)) :
    ∃ reports ending last, e.Follows obs o first reports ending last := by
  rcases looped : (iterations e.setup obs).outcome (first, o) with ⟨ending, last, o'⟩
  obtain ⟨reports, course⟩ := iterations_course looped
  obtain ⟨result, state, observer⟩ := run_of_iterations start looped
  rw [course.observer] at observer
  exact ⟨reports, ending, last, start, ⟨o', course⟩, result, state, observer⟩

/-- A course from the start of a run is the one the run follows. -/
theorem Follows.of_course {obs : Observer α d ω} {first last : State α σ d} {o' : ω}
    {reports : List (State α σ d)} {ending : Except (Failure α) Status}
    (start : (startingProcedure e.setup).outcome e.opened = (.ok (), first))
    (course : Course e.setup obs (e.setup.settings.maxIter + 1) (first.headed e.setup) o reports
      ending last o') : e.Follows obs o first reports ending last := by
  have looped : (iterations e.setup obs).outcome (first, o) = (ending, (last, o')) := by
    rw [iterations, Step.outcome_modify_bind]
    exact course.outcome_passes
  obtain ⟨result, state, observer⟩ := run_of_iterations start looped
  rw [course.observer] at observer
  exact ⟨start, ⟨o', course⟩, result, state, observer⟩

/-- A run follows one course only. -/
theorem Follows.unique {obs : Observer α d ω} {first last last' : State α σ d}
    {reports reports' : List (State α σ d)} {ending ending' : Except (Failure α) Status}
    (follows : e.Follows obs o first reports ending last)
    (other : e.Follows obs o first reports' ending' last') :
    reports' = reports ∧ ending' = ending ∧ last' = last := by
  obtain ⟨_, course⟩ := follows.course
  obtain ⟨_, course'⟩ := other.course
  exact course.unique course'

/-- A run whose start fails gives the state it has left. -/
theorem run_of_failed_start (obs : Observer α d ω) (o : ω) {cause : Failure α} {s : State α σ d}
    (start : (startingProcedure e.setup).outcome e.opened = (.error cause, s)) :
    (e.run obs o).1 = { s with status := startStatus cause }.result ∧
      (∃ w, (e.run obs o).2.1.state = { s with world := w, status := startStatus cause }) ∧
      (e.run obs o).2.2 = obs.onSolution (e.run obs o).1 o := by
  have ran : outcome e.setup obs e.opened o =
      ((s.startStopped e.setup cause).1, (s.startStopped e.setup cause).2, o) := by
    simp only [outcome, start]
  obtain ⟨w', recorded⟩ : ∃ w', s.startStopped e.setup cause =
      (startStatus cause, { s with world := w' }) := by
    cases cause with
    | evaluation q =>
      obtain ⟨w', recorded⟩ := s.recordFrom_eq e.setup 1 (.interiorStopped s.iter (.evaluation q))
      exact ⟨w', congrArg (Prod.mk _) recorded⟩
    | _ => exact ⟨_, rfl⟩
  rw [recorded] at ran
  obtain ⟨result, state, observer⟩ := run_of_outcome ran
  exact ⟨result, state, observer⟩

/-- A run whose start fails ends with a failure. -/
theorem failure_of_failed_start (obs : Observer α d ω) (o : ω) {cause : Failure α}
    {s : State α σ d} (start : (startingProcedure e.setup).outcome e.opened = (.error cause, s)) :
    (e.run obs o).1.status.isFailure = true := by
  rw [(run_of_failed_start obs o start).1]
  cases cause <;> rfl

theorem Follows.status_eq {obs : Observer α d ω} {first last : State α σ d}
    {reports : List (State α σ d)} {ending : Except (Failure α) Status}
    (follows : e.Follows obs o first reports ending last) :
    (e.run obs o).1.status = endingStatus ending := by
  rw [follows.result]
  rfl

theorem Follows.x_eq {obs : Observer α d ω} {first last : State α σ d}
    {reports : List (State α σ d)} {ending : Except (Failure α) Status}
    (follows : e.Follows obs o first reports ending last) :
    (e.run obs o).1.x = last.curr.x.point := by
  rw [follows.result]
  rfl

/-- A run that does not end with a failure has started, and its loop ended with its status. -/
theorem follows_of_regular {obs : Observer α d ω}
    (regular : (e.run obs o).1.status.isFailure = false) :
    ∃ first reports last, e.Follows obs o first reports (.ok (e.run obs o).1.status) last := by
  rcases started : (startingProcedure e.setup).outcome e.opened with ⟨cause | _, first⟩
  · rw [failure_of_failed_start obs o started] at regular
    cases regular
  · obtain ⟨reports, ending, last, follows⟩ := e.run_follows obs o started
    have status := follows.status_eq
    cases ending with
    | ok _ =>
      rw [status]
      exact ⟨first, reports, last, follows⟩
    | error cause =>
      rw [status, endingStatus, isFailure_statusOf] at regular
      cases regular

/-- A run that has started and ends with a failure was ended by a failed iteration. -/
theorem follows_of_failure {obs : Observer α d ω} {first : State α σ d}
    (start : (startingProcedure e.setup).outcome e.opened = (.ok (), first))
    (failure : (e.run obs o).1.status.isFailure = true) :
    ∃ reports f last, e.Follows obs o first reports (.error f) last := by
  obtain ⟨reports, ending, last, follows⟩ := e.run_follows obs o start
  cases ending with
  | error f => exact ⟨reports, f, last, follows⟩
  | ok status =>
    obtain ⟨o', course⟩ := follows.course
    rw [follows.status_eq, endingStatus, course.ending_ok] at failure
    cases failure

/-- An engine after some runs of another one, with any observers. -/
inductive Reaches (e : Engine α σ d) : Engine α σ d → Prop
  | refl : Reaches e e
  | run {e' : Engine α σ d} (before : Reaches e e') {ω : Type} (obs : Observer α d ω) (o : ω) :
      Reaches e (e'.run obs o).2.1

theorem Reaches.setup_eq {e e' : Engine α σ d} (runs : e.Reaches e') : e'.setup = e.setup := by
  induction runs with
  | refl => rfl
  | run before obs o ih => exact ih

end Engine

end SmoothOpt.Barrier
