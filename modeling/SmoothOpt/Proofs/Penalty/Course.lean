import SmoothOpt.Proofs.Barrier.Course
import SmoothOpt.Proofs.Penalty.Major

/-!
The course of a run of the augmented Lagrangian method.

A run fails or ends before its first major iteration, or it follows a `Course` of them, which lists
the states reported to the observer. The reports are a chain of passages, the counts of the state it
leaves are those of the subproblems it solved, and the budget bounds them. `Engine.run_follows` ties
a run to its path.
-/
namespace SmoothOpt.Penalty

open Scalar Linear

variable {α σ ω : Type} [Scalar α] {d : Dims} {c : Setup α σ d} {s t : State α σ d}

/-- Major iterations from a state, with the states reported on the way. -/
inductive Course [DenseSolver α] (c : Setup α σ d) (obs : Observer α d ω) :
    Nat → State α σ d → ω → List (State α σ d) → Except (Failure α) Status → State α σ d → ω → Prop
  | spent (s : State α σ d) (o : ω) : Course c obs 0 s o [] (.ok .maxIterExceeded) s o
  | stopped {left : Nat} {s : State α σ d} {o o' : ω}
      (answer : obs.onIteration (s.recordIteration c).info o = (true, o')) :
      Course c obs (left + 1) s o [s.recordIteration c] (.ok .userStopped) (s.recordIteration c) o'
  | failed {left : Nat} {s t : State α σ d} {o o' : ω} {f : Failure α}
      (answer : obs.onIteration (s.recordIteration c).info o = (false, o'))
      (step : (major c).outcome (s.recordIteration c) = (.error f, t)) :
      Course c obs (left + 1) s o [s.recordIteration c] (.error f) t o'
  | decided {left : Nat} {s t : State α σ d} {o o' : ω} {status : Status}
      (answer : obs.onIteration (s.recordIteration c).info o = (false, o'))
      (step : (major c).outcome (s.recordIteration c) = (.ok (some status), t)) :
      Course c obs (left + 1) s o [s.recordIteration c] (.ok status) t o'
  | stepped {left : Nat} {s t last : State α σ d} {o o' o'' : ω} {reports : List (State α σ d)}
      {ending : Except (Failure α) Status}
      (answer : obs.onIteration (s.recordIteration c).info o = (false, o'))
      (step : (major c).outcome (s.recordIteration c) = (.ok none, t))
      (rest : Course c obs left t o' reports ending last o'') :
      Course c obs (left + 1) s o (s.recordIteration c :: reports) ending last o''

section Loop

variable [DenseSolver α] {obs : Observer α d ω} {left : Nat} {last : State α σ d} {o o' : ω}
  {reports : List (State α σ d)} {ending : Except (Failure α) Status}

/-- A pass is a report and, unless the observer stops there, a major iteration. -/
theorem outcome_pass (s : State α σ d) (o : ω) :
    (pass c obs).outcome (s, o) =
      let answer := obs.onIteration (s.recordIteration c).info o
      if answer.1 then (.ok (some .userStopped), (s.recordIteration c, answer.2))
      else (((major c).outcome (s.recordIteration c)).1,
        (((major c).outcome (s.recordIteration c)).2, answer.2)) := by
  have unfolded : (pass c obs).outcome (s, o) =
      (if (obs.onIteration (s.recordIteration c).info o).1 then pure (some .userStopped)
        else (major c).within (·.1) (fun s rest => (s, rest.2)) id :
          Step (Failure α) (State α σ d × ω) (Option Status)).outcome
        (s.recordIteration c, (obs.onIteration (s.recordIteration c).info o).2) := rfl
  rw [unfolded]
  dsimp only
  split
  · rfl
  · rw [Step.outcome_within]
    rcases (major c).outcome (s.recordIteration c) with ⟨_ | _, t⟩ <;> rfl

/-- The loop follows a course. -/
theorem passes_course (left : Nat) : ∀ (s : State α σ d) (o : ω)
    {ending : Except (Failure α) Status} {last : State α σ d} {o' : ω},
    (passes c obs left).outcome (s, o) = (ending, (last, o')) →
      ∃ reports, Course c obs left s o reports ending last o' := by
  induction left with
  | zero =>
    intro s o ending last o' h
    cases h
    exact ⟨[], .spent s o⟩
  | succ left ih =>
    intro s o ending last o' h
    rw [passes, Step.outcome_bind, outcome_pass] at h
    rcases answer : obs.onIteration (s.recordIteration c).info o with ⟨_ | _, o₁⟩
    · rcases step : (major c).outcome (s.recordIteration c) with ⟨f | _ | status, t⟩
      · rw [answer, step] at h
        cases h
        exact ⟨_, .failed answer step⟩
      · rw [answer, step] at h
        obtain ⟨reports, rest⟩ := ih t o₁ h
        exact ⟨_, .stepped answer step rest⟩
      · rw [answer, step] at h
        cases h
        exact ⟨_, .decided answer step⟩
    · rw [answer] at h
      cases h
      exact ⟨_, .stopped answer⟩

/-- Two courses from one state are the same. -/
theorem Course.unique (course : Course c obs left s o reports ending last o') :
    ∀ {reports' : List (State α σ d)} {ending' : Except (Failure α) Status} {last' : State α σ d}
      {o'' : ω}, Course c obs left s o reports' ending' last' o'' →
        reports' = reports ∧ ending' = ending ∧ last' = last := by
  induction course with
  | spent =>
    intro _ _ _ _ other
    cases other
    exact ⟨rfl, rfl, rfl⟩
  | stopped answer =>
    intro _ _ _ _ other
    cases other <;> simp_all
  | failed answer step =>
    intro _ _ _ _ other
    cases other <;> simp_all
  | decided answer step =>
    intro _ _ _ _ other
    cases other <;> simp_all
  | stepped answer step rest ih =>
    intro _ _ _ _ other
    cases other with
    | stopped answer' => simp_all
    | failed answer' step' => simp_all
    | decided answer' step' => simp_all
    | stepped answer' step' rest' =>
      obtain ⟨-, rfl⟩ := Prod.mk.inj (answer.symm.trans answer')
      obtain ⟨-, rfl⟩ := Prod.mk.inj (step.symm.trans step')
      obtain ⟨rfl, rfl, rfl⟩ := ih rest'
      exact ⟨rfl, rfl, rfl⟩

/-- A course reports its first state first. -/
theorem Course.head (course : Course c obs left s o reports ending last o') :
    ∀ r ∈ reports.head?, r = s.recordIteration c := by
  cases course with
  | spent => nofun
  | stopped | failed | decided | stepped =>
    intro r first
    exact (Option.some.inj first).symm

/-- The box is the same at every report and in the end. -/
theorem Course.box (course : Course c obs left s o reports ending last o') :
    last.view.box = s.view.box ∧ ∀ r ∈ reports, r.view.box = s.view.box := by
  have recorded (s : State α σ d) : (s.recordIteration c).view.box = s.view.box :=
    congrArg View.box (s.recordIteration_view c)
  induction course with
  | spent => exact ⟨rfl, nofun⟩
  | @stopped left s =>
    exact ⟨recorded s, fun r member => List.mem_singleton.mp member ▸ recorded s⟩
  | @failed left s _ _ _ _ _ step | @decided left s _ _ _ _ _ step =>
    exact ⟨(major_box step).trans (recorded s),
      fun r member => List.mem_singleton.mp member ▸ recorded s⟩
  | @stepped left s t _ _ _ _ _ _ _ step rest ih =>
    have moved : t.view.box = s.view.box := (major_box step).trans (recorded s)
    refine ⟨ih.1.trans moved, fun r member => ?_⟩
    obtain rfl | later := List.mem_cons.mp member
    · exact recorded s
    · exact (ih.2 r later).trans moved

/-- What a completed major iteration relates, consecutive reports are related by. -/
theorem Course.isChain {R : State α σ d → State α σ d → Prop}
    (course : Course c obs left s o reports ending last o')
    (related : ∀ s t : State α σ d, (major c).outcome (s.recordIteration c) = (.ok none, t) →
      R (s.recordIteration c) (t.recordIteration c)) : reports.IsChain R := by
  induction course with
  | spent => exact .nil
  | stopped | failed | decided => exact .singleton _
  | stepped answer step rest ih =>
    refine List.isChain_cons.mpr ⟨fun r first => ?_, ih⟩
    rw [rest.head r first]
    exact related _ _ step

/-- Consecutive reports are one completed major iteration apart. -/
theorem Course.chain (course : Course c obs left s o reports ending last o') :
    reports.IsChain (Passage c) :=
  course.isChain fun _ _ => .of_next

/-- The subproblems solved in a run with the given status and reports. A report the observer stops
at has none, and none is solved whose engine cannot be created. -/
def solves (c : Setup α σ d) (status : Status) (reports : List (State α σ d)) :
    List (SolveResult α (boxed d)) :=
  (if status = .userStopped then reports.dropLast else reports).filterMap (innerResult c)

theorem solves_singleton {status : Status} (going : status ≠ .userStopped) (r : State α σ d) :
    solves c status [r] = (innerResult c r).toList := by
  rw [solves, if_neg going]
  cases found : innerResult c r <;> simp [found]

theorem solves_cons {status : Status} {r : State α σ d} {res : SolveResult α (boxed d)}
    (found : innerResult c r = some res) (more : status = .userStopped → reports ≠ []) :
    solves c status (r :: reports) = res :: solves c status reports := by
  unfold solves
  split
  · rename_i stopped
    rw [List.dropLast_cons_of_ne_nil (more stopped), List.filterMap_cons_some found]
  · rw [List.filterMap_cons_some found]

theorem State.Tally.took {solved : List (SolveResult α (boxed d))} {res : SolveResult α (boxed d)}
    (tally : s.Tally solved) (took : Took c s res t) : t.Tally (solved ++ [res]) where
  iter := by rw [took.iter, tally.iter, List.length_append, List.length_singleton]
  innerIters := by simp [took.innerIters, tally.innerIters]
  innerStatuses := by simp [took.innerStatuses, tally.innerStatuses]

theorem Course.reports_ne_nil (course : Course c obs left s o reports ending last o')
    (stopped : Barrier.endingStatus ending = .userStopped) : reports ≠ [] := by
  cases course with
  | spent => cases stopped
  | stopped | failed | decided | stepped => exact List.cons_ne_nil _ _

/-- At every exit the counts are those of the solved subproblems. -/
theorem Course.tally (course : Course c obs left s o reports ending last o') :
    ∀ before, s.Tally before →
      last.Tally (before ++ solves c (Barrier.endingStatus ending) reports) := by
  induction course with
  | spent =>
    intro before tally
    simpa [solves] using tally
  | stopped answer =>
    intro before tally
    simpa [solves, Barrier.endingStatus] using tally.recordIteration c
  | @failed left s t o o' f answer step =>
    intro before tally
    have going : Barrier.statusOf f ≠ .userStopped := by
      cases f <;> rintro ⟨⟩
    rw [Barrier.endingStatus, solves_singleton going]
    obtain ⟨missing, w, rfl⟩ | ⟨res, took⟩ := major_error step
    · rw [missing, Option.toList_none, List.append_nil]
      exact { tally.recordIteration c with }
    · rw [took.found]
      exact (tally.recordIteration c).took took
  | decided answer step =>
    intro before tally
    obtain ⟨⟨res, took⟩, going, -⟩ := major_decided step
    rw [Barrier.endingStatus, solves_singleton going, took.found]
    exact (tally.recordIteration c).took took
  | stepped answer step rest ih =>
    intro before tally
    obtain ⟨res, u, took, -, rfl⟩ := major_next step
    rw [solves_cons took.found rest.reports_ne_nil, List.append_cons]
    exact ih _ { (tally.recordIteration c).took took with }

/-- A report and a major iteration that goes on count one iteration, in the same budget. -/
theorem major_next_counts (step : (major c).outcome (s.recordIteration c) = (.ok none, t)) :
    t.iter = s.iter + 1 ∧ t.termination.maxIter = s.termination.maxIter := by
  obtain ⟨unmoved, kept⟩ := s.recordIteration_keeps c
  obtain ⟨res, u, took, -, rfl⟩ := major_next step
  rw [← unmoved, ← kept]
  exact ⟨took.iter, took.maxIter_eq⟩

/-- The budget bounds the major iterations, and it is blamed only when they have used it up. -/
theorem Course.budget (course : Course c obs left s o reports ending last o') :
    s.termination.maxIter = s.iter + left → last.iter ≤ s.iter + left ∧
      (Barrier.endingStatus ending = .maxIterExceeded → last.iter = s.iter + left) := by
  induction course with
  | spent =>
    intro _
    exact ⟨Nat.le_refl _, fun _ => rfl⟩
  | @stopped left s o o' answer =>
    intro _
    have unmoved : (s.recordIteration c).iter = s.iter := (s.recordIteration_keeps c).1
    exact ⟨by omega, nofun⟩
  | @failed left s t o o' f answer step =>
    intro _
    have unmoved := (s.recordIteration_keeps c).1
    have blameless : Barrier.statusOf f ≠ .maxIterExceeded := by
      cases f <;> rintro ⟨⟩
    refine ⟨?_, fun blamed => absurd blamed blameless⟩
    obtain ⟨-, w, rfl⟩ | ⟨res, took⟩ := major_error step
    · exact unmoved.le.trans (Nat.le_add_right _ _)
    · have counted := took.iter
      omega
  | @decided left s t o o' status answer step =>
    intro within
    obtain ⟨unmoved, same⟩ := s.recordIteration_keeps c
    obtain ⟨⟨res, took⟩, -, spent⟩ := major_decided step
    have counted := took.iter
    refine ⟨by omega, fun blamed => ?_⟩
    have reached := spent blamed
    omega
  | @stepped left s t last o o' o'' reports ending answer step rest ih =>
    intro within
    obtain ⟨counted, kept⟩ := major_next_counts step
    obtain ⟨bounded, blamed⟩ := ih (by omega)
    refine ⟨by omega, fun status => ?_⟩
    have reached := blamed status
    omega

/-- What an observer remembers after it has seen the states `reports`. -/
def remembered (obs : Observer α d ω) (reports : List (State α σ d)) (o : ω) : ω :=
  reports.foldl (fun o r => (obs.onIteration r.info o).2) o

/-- The reports are what the observer is told, in order, and it is told nothing else. -/
theorem Course.observer (course : Course c obs left s o reports ending last o') :
    o' = remembered obs reports o := by
  induction course with
  | spent => rfl
  | stopped answer | failed answer step | decided answer step =>
    exact (congrArg Prod.snd answer).symm
  | stepped answer step rest ih => rw [ih, remembered, remembered, List.foldl_cons, answer]

end Loop

section Runs

variable [DenseSolver α] {obs : Observer α d ω} {o : ω}

/-- A run from a state to a status: the start fails or decides, and nothing is reported, or the loop
follows a course. What is written to the log last does not count. -/
inductive Path (c : Setup α σ d) (obs : Observer α d ω) (s : State α σ d) (o : ω) :
    List (State α σ d) → Status → State α σ d → Prop
  | startFailed {f : Failure α} {t : State α σ d}
      (start : (prepare c).outcome s = (.error f, t)) : Path c obs s o [] (t.startStopped c f).1 t
  | startDecided {status : Status} {t : State α σ d}
      (start : (prepare c).outcome s = (.ok (some status), t)) : Path c obs s o [] status t
  | looped {first last : State α σ d} {reports : List (State α σ d)}
      {ending : Except (Failure α) Status} {o' : ω}
      (start : (prepare c).outcome s = (.ok none, first))
      (course : Course c obs c.settings.maxIter first o reports ending last o') :
      Path c obs s o reports (Barrier.endingStatus ending) last

namespace Path

variable {reports : List (State α σ d)} {status : Status} {last : State α σ d}

/-- The first report is ready and counts nothing. -/
theorem first (path : Path c obs s o reports status last) (tally : s.Tally []) :
    ∀ r ∈ reports.head?, r.Ready c ∧ r.iter = 0 := by
  cases path with
  | startFailed | startDecided => nofun
  | @looped first last reports ending o' start course =>
    intro r here
    obtain ⟨w, recorded⟩ := first.recordIteration_eq c
    rw [course.head r here, recorded]
    obtain ⟨ready, -⟩ := prepare_ok start
    exact ⟨{ ready with published := { ready.published with } }, (prepare_tally tally start).iter⟩

/-- Two paths from one state are the same. -/
theorem unique (path : Path c obs s o reports status last) {reports' : List (State α σ d)}
    {status' : Status} {last' : State α σ d} (other : Path c obs s o reports' status' last') :
    reports' = reports ∧ status' = status ∧ last' = last := by
  cases path with
  | startFailed start =>
    cases other with
    | startFailed start' =>
      cases start.symm.trans start'
      exact ⟨rfl, rfl, rfl⟩
    | startDecided start' | looped start' => cases start.symm.trans start'
  | startDecided start =>
    cases other with
    | startDecided start' =>
      cases start.symm.trans start'
      exact ⟨rfl, rfl, rfl⟩
    | startFailed start' | looped start' => cases start.symm.trans start'
  | looped start course =>
    cases other with
    | startFailed start' | startDecided start' => cases start.symm.trans start'
    | looped start' course' =>
      cases start.symm.trans start'
      obtain ⟨rfl, rfl, rfl⟩ := course.unique course'
      exact ⟨rfl, rfl, rfl⟩

theorem chain (path : Path c obs s o reports status last) : reports.IsChain (Passage c) := by
  cases path with
  | startFailed | startDecided => exact .nil
  | looped start course => exact course.chain

/-- The box at the end of a path is that of its beginning. -/
theorem box (path : Path c obs s o reports status last) : last.view.box = s.view.box := by
  cases path with
  | startFailed start | startDecided start => exact (prepare_keeps start).box
  | looped start course => exact course.box.1.trans (prepare_keeps start).box

/-- At every exit of a run the counts are those of the solved subproblems. -/
theorem tally (path : Path c obs s o reports status last) (tally : s.Tally []) :
    last.Tally (solves c status reports) := by
  cases path with
  | startFailed start | startDecided start => simpa [solves] using prepare_tally tally start
  | looped start course => exact course.tally [] (prepare_tally tally start)

/-- The major iterations of a run stay within the budget, and it is blamed only when they have used
it up. -/
theorem budget (path : Path c obs s o reports status last) (tally : s.Tally []) :
    last.iter ≤ c.settings.maxIter ∧
      (status = .maxIterExceeded → last.iter = c.settings.maxIter) := by
  cases path with
  | @startFailed f t start =>
    have counted : last.iter = 0 := (prepare_tally tally start).iter
    have blameless : (last.startStopped c f).1 ≠ .maxIterExceeded := by
      cases f <;> nofun
    exact ⟨by omega, fun blamed => absurd blamed blameless⟩
  | startDecided start =>
    have counted : last.iter = 0 := (prepare_tally tally start).iter
    obtain ⟨-, spent⟩ := prepare_ok start
    refine ⟨by omega, ?_⟩
    rintro rfl
    have reached := spent rfl
    omega
  | @looped first last reports ending o' start course =>
    have counted : first.iter = 0 := (prepare_tally tally start).iter
    obtain ⟨ready, -⟩ := prepare_ok start
    have within := course.budget (by rw [ready.maxIter, counted, Nat.zero_add])
    rwa [counted, Nat.zero_add] at within

end Path

/-- A run takes a path, and the observer is told its reports. -/
theorem outcome_path (s : State α σ d) (o : ω) : ∃ reports status last w,
    Path c obs s o reports status last ∧
      outcome c obs s o = (status, { last with world := w }, remembered obs reports o) := by
  rcases start : (prepare c).outcome s with ⟨f | _ | status, t⟩
  · have ran : outcome c obs s o = ((t.startStopped c f).1, (t.startStopped c f).2, o) := by
      simp only [outcome, start]
    obtain ⟨w, recorded⟩ := t.startStopped_eq c f
    rw [recorded] at ran
    exact ⟨_, _, _, w, .startFailed start, ran⟩
  · rcases looped : (passes c obs c.settings.maxIter).outcome (t, o) with ⟨f | status, last, o'⟩
    · obtain ⟨reports, course⟩ := passes_course _ _ _ looped
      obtain ⟨w, recorded⟩ := last.recordFrom_eq c 1 (.penaltyStopped last.iter f)
      have ran : outcome c obs s o = (Barrier.statusOf f, { last with world := w }, o') := by
        simp only [outcome, start, looped, State.stopped, recorded]
      rw [course.observer] at ran
      exact ⟨_, _, _, w, .looped start course, ran⟩
    · obtain ⟨reports, course⟩ := passes_course _ _ _ looped
      have ran : outcome c obs s o = (status, last, o') := by
        simp only [outcome, start, looped]
      rw [course.observer] at ran
      exact ⟨_, _, _, last.world, .looped start course, ran⟩
  · have ran : outcome c obs s o = (status, t, o) := by
      simp only [outcome, start]
    exact ⟨_, _, _, t.world, .startDecided start, ran⟩

namespace Engine

def opened (e : Engine α σ d) : State α σ d :=
  { e.state with
    status := .pending, iter := 0, innerIters := 0, innerStatuses := [], lastInner := none
    }.recordFrom e.setup 1 (.penaltyStarted d e.setup.settings.rho0 e.setup.settings.growth)

omit [Scalar α] [DenseSolver α] in
theorem opened_eq (e : Engine α σ d) : ∃ w, e.opened = { e.state with
    world := w, status := .pending, iter := 0, innerIters := 0, innerStatuses := []
    lastInner := none } := State.recordFrom_eq _ _ _ _

omit [Scalar α] [DenseSolver α] in
theorem opened_tally (e : Engine α σ d) : e.opened.Tally [] := by
  obtain ⟨w, opened⟩ := e.opened_eq
  rw [opened]
  exact ⟨rfl, rfl, rfl⟩

/-- A run takes a path from its opened state to its status, and gives the result of the state the
path leaves. The observer is told the reports and the result. -/
structure Follows (e : Engine α σ d) (obs : Observer α d ω) (o : ω) (reports : List (State α σ d))
    (status : Status) (last : State α σ d) : Prop where
  path : Path e.setup obs e.opened o reports status last
  result : (e.run obs o).1 = { last with status := status }.result
  observer : (e.run obs o).2.2 = obs.onSolution (e.run obs o).1 (remembered obs reports o)

/-- A run leaves the state at the end of its path, with its status. -/
theorem run_leaves (e : Engine α σ d) (obs : Observer α d ω) (o : ω) :
    ∃ reports status last w, e.Follows obs o reports status last ∧
      (e.run obs o).2.1.state = { last with world := w, status := status } := by
  obtain ⟨reports, status, last, w, path, ran⟩ := outcome_path e.opened o
  have result : (e.run obs o).1 = { (outcome e.setup obs e.opened o).2.1 with
      status := (outcome e.setup obs e.opened o).1 }.result := rfl
  have observer : (e.run obs o).2.2 =
      obs.onSolution (e.run obs o).1 (outcome e.setup obs e.opened o).2.2 := rfl
  have state : ∃ w, (e.run obs o).2.1.state = { (outcome e.setup obs e.opened o).2.1 with
      world := w, status := (outcome e.setup obs e.opened o).1 } := State.recordFrom_eq _ _ _ _
  obtain ⟨w', state⟩ := state
  rw [ran] at result observer state
  exact ⟨reports, status, last, w', ⟨path, result, observer⟩, state⟩

theorem run_follows (e : Engine α σ d) (obs : Observer α d ω) (o : ω) :
    ∃ reports status last, e.Follows obs o reports status last := by
  obtain ⟨reports, status, last, w, follows, -⟩ := e.run_leaves obs o
  exact ⟨reports, status, last, follows⟩

/-- A path from the opened state is the one the run follows. -/
theorem Follows.of_path {e : Engine α σ d} {obs : Observer α d ω} {o : ω}
    {reports : List (State α σ d)} {status : Status} {last : State α σ d}
    (path : Path e.setup obs e.opened o reports status last) :
    e.Follows obs o reports status last := by
  obtain ⟨reports', status', last', follows⟩ := e.run_follows obs o
  obtain ⟨rfl, rfl, rfl⟩ := path.unique follows.path
  exact follows

/-- A course from a start that goes on is the one the run follows. -/
theorem Follows.of_course {e : Engine α σ d} {obs : Observer α d ω} {o o' : ω}
    {first last : State α σ d} {reports : List (State α σ d)} {ending : Except (Failure α) Status}
    (start : (prepare e.setup).outcome e.opened = (.ok none, first))
    (course : Course e.setup obs e.setup.settings.maxIter first o reports ending last o') :
    e.Follows obs o reports (Barrier.endingStatus ending) last :=
  .of_path (.looped start course)

end Engine

end Runs

end SmoothOpt.Penalty
