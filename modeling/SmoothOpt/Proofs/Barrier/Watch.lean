import SmoothOpt.Proofs.Barrier.Announcement
import SmoothOpt.Proofs.Problem.Ordering
import SmoothOpt.Proofs.Problem.Watch

/-!
The interior point method under watch.

Between two passes the copies that a watched problem keeps are those of the engine's places, and no
evaluation has failed. An evaluation that fails ends the start or the iteration it belongs to at
once, with a failure that says so; no other failure comes after one. So whether the last evaluation
of a run failed can be read off its status.
-/
namespace SmoothOpt

open Scalar Linear

/-- A search that tries step lengths one after the other ends with a trial of the accepted one, with
a failure of a trial, or because it gives up. -/
theorem LineSearch.backtrackFrom_leaves {α τ : Type} [Scalar α] {l : LineSearch α}
    {filter : Filter α} {current : Measures α} {slope : α}
    {trial : α → Step (Failure α) τ (Measures α)} {onReject : Rejection α → τ → τ}
    {P : τ → Prop} {Q : α → τ → Prop} {E : Failure α → τ → Prop}
    (tried : ∀ a, Step.Leaves P (trial a) (fun _ => Q a) E)
    (rejected : ∀ a r t, Q a t → P (onReject r t)) (gaveUp : ∀ a t, P t → E (.lineSearch a) t)
    (left : Nat) : ∀ (backtracks : Nat) (alpha : α), Step.Leaves P
      (l.backtrackFrom filter current slope trial onReject left backtracks alpha)
      (fun acc => Q acc.alpha) E := by
  induction left with
  | zero =>
    intro backtracks alpha
    exact .throw (gaveUp alpha)
  | succ left ih =>
    intro backtracks alpha
    rw [backtrackFrom]
    refine (tried alpha).bind fun measured => ?_
    cases l.accept filter current measured alpha slope with
    | some kind => exact .pure fun _ => id
    | none =>
      refine .bind (Step.Leaves.modify (Q := fun _ => P) (rejected alpha _)) fun _ => ?_
      dsimp only
      split
      · exact .throw (gaveUp _)
      · exact ih _ _

namespace Barrier

variable {α σ ω : Type} [Scalar α] {d : Dims} {p : Problem α σ d}
  {c : Setup α (σ × Watch α d) d} {s s' : State α (σ × Watch α d) d} {log : List Answer}

namespace State

def SamePlaces (s s' : State α (σ × Watch α d) d) : Prop :=
  s'.world.problem = s.world.problem ∧ s'.eval = s.eval ∧ s'.trialEval = s.trialEval

def watch (s : State α (σ × Watch α d) d) : Watch α d := s.world.problem.2

/-- The copies are those of the state's places. -/
def Copied (s : State α (σ × Watch α d) d) : Prop := s.watch.Copies s.eval s.trialEval

/-- The derivatives at the current point were asked last, and nothing has failed since `log`. -/
def Quiet (log : List Answer) (s : State α (σ × Watch α d) d) : Prop :=
  s.watch.Well log .standing s.eval s.trialEval

/-- What an iteration or a start leaves that fails. -/
def Broken (log : List Answer) (f : Failure α) (s : State α (σ × Watch α d) d) : Prop :=
  s.Copied ∧ s.watch.Told log f

omit [Scalar α] in
theorem SamePlaces.copied (same : s.SamePlaces s') (copied : s.Copied) : s'.Copied := by
  rw [Copied, watch, same.1, same.2.1, same.2.2]
  exact copied

omit [Scalar α] in
theorem SamePlaces.quiet (same : s.SamePlaces s') (quiet : s.Quiet log) : s'.Quiet log := by
  rw [Quiet, watch, same.1, same.2.1, same.2.2]
  exact quiet

omit [Scalar α] in
theorem Quiet.copied (quiet : s.Quiet log) : s.Copied := .inr ⟨_, by decide, quiet.toPlaced⟩

theorem recordFrom_places (s : State α (σ × Watch α d) d) (c : Setup α (σ × Watch α d) d)
    (verbosity : Nat) (e : Event α) : s.SamePlaces (s.recordFrom c verbosity e) := by
  refine ⟨s.recordFrom_problem c verbosity e, ?_⟩
  obtain ⟨w, recorded⟩ := s.recordFrom_eq c verbosity e
  rw [recorded]
  exact ⟨rfl, rfl⟩

theorem headed_places (s : State α (σ × Watch α d) d) (c : Setup α (σ × Watch α d) d) :
    s.SamePlaces (s.headed c) := by
  refine ⟨(s.headed_place c).1, ?_⟩
  obtain ⟨w, headed⟩ := s.headed_eq c
  rw [headed]
  exact ⟨rfl, rfl⟩

theorem reported_places (s : State α (σ × Watch α d) d) (c : Setup α (σ × Watch α d) d) :
    s.SamePlaces (s.reported c) := by
  apply updateBarrier_preserves (P := s.SamePlaces)
  · intro t w memory same _ _
    exact ⟨memory.trans same.1, same.2⟩
  · exact ⟨rfl, rfl, rfl⟩

variable [DenseSolver α]

theorem settleStart_places (s : State α (σ × Watch α d) d) (c : Setup α (σ × Watch α d) d) :
    s.SamePlaces (s.settleStart c) := by
  refine ⟨(s.settleStart_place c).1, ?_⟩
  obtain ⟨w, settled⟩ := settleStart_eq s c
  rw [settled]
  exact ⟨rfl, rfl⟩

theorem complete_places (s : State α (σ × Watch α d) d) (c : Setup α (σ × Watch α d) d)
    (dir : Direction α d) (acc : Accepted α) (alphaDual : α) :
    s.SamePlaces (s.complete c dir acc alphaDual) := by
  refine ⟨(s.complete_place c dir acc alphaDual).1, ?_⟩
  obtain ⟨w, y, completed⟩ := complete_eq s c dir acc alphaDual
  rw [completed]
  exact ⟨rfl, rfl⟩

end State

section Steps

variable (watched : c.problem = p.watched)

include watched

/-- Asking for a starting point turns to the place of the current point. -/
theorem askStart_watched :
    Step.Leaves (fun s => s.Copied ∧ s.watch.answers = log) (askStart c)
      (fun _ s => s.watch.Well log .starting s.eval s.trialEval) (State.Broken log) := by
  have placed {s s' : State α (σ × Watch α d) d} {r : Except (Failure α) (Vector α d.n)}
      (before : s.Copied ∧ s.watch.answers = log) (ran : (askStart c).outcome s = (r, s')) :
      s'.watch.Well log .starting s'.eval s'.trialEval := by
    rw [outcome_askStart, watched] at ran
    obtain ⟨-, rfl⟩ := Prod.mk.inj ran
    refine ⟨Watch.Copies.restart before.1, .of_same ?_⟩
    refine Eq.trans ?_ before.2
    change (Watch.restart s.watch).answers = _
    unfold Watch.restart
    split <;> rfl
  refine .of_outcomes (fun s x0 s' before ran => placed before ran) fun s f s' before ran => ?_
  have well := placed before ran
  refine ⟨.inr ⟨_, by decide, well.toPlaced⟩, ?_⟩
  rw [outcome_askStart] at ran
  obtain ⟨refused, -⟩ := Prod.mk.inj ran
  split at refused
  · cases refused
    exact well.clean
  · split at refused
    · cases refused
      exact well.clean
    · cases refused

/-- A trial goes to the place of the trials. -/
theorem measureTrial_watched (log : List Answer) (s : State α (σ × Watch α d) d)
    (dir : Direction α d) (alpha : α) :
    Step.Leaves (fun t => t.2.problem.2.approach.Well log .trying t.1 s.eval)
      (measureTrial c s dir alpha) (fun _ t => t.2.problem.2.Well log .trying t.1 s.eval)
      fun f t => t.2.problem.2.Copies s.eval t.1 ∧ t.2.problem.2.Told log f := by
  rw [measureTrial, watched]
  refine Step.Leaves.bind (Q := fun _ t => t.2.problem.2.Well log .trying t.1 s.eval)
    (.within fun t before => ?_) fun _ => .get_bind fun t after => .pure ?_
  · have asked := Evaluation.funcs_watched p log .trying s.eval
      (s.curr.trial dir c.bounds alpha).x.point
    refine .of_outcomes ?_ ?_
    · rintro _ _ u rfl ran
      exact asked.ok before ran
    · rintro _ q u rfl ran
      have ill := asked.error before ran
      exact ⟨.inl ill.toPlaced, ill.failed⟩
  · rintro _ rfl
    exact after

/-- The last trial of a line search is the accepted one. -/
theorem searchStep_watched (log : List Answer) (s : State α (σ × Watch α d) d)
    (dir : Direction α d) (alphaMax : α) :
    Step.Leaves (fun t => t.2.problem.2.approach.Well log .trying t.1 s.eval)
      (searchStep c s dir alphaMax) (fun _ t => t.2.problem.2.Well log .trying t.1 s.eval)
      fun f t => t.2.problem.2.Copies s.eval t.1 ∧ t.2.problem.2.Told log f := by
  have tried := measureTrial_watched watched log s dir
  unfold searchStep
  split
  · exact (tried alphaMax).bind fun _ => .pure fun _ => id
  · refine LineSearch.backtrackFrom_leaves tried (fun _ _ t well => ?_) (fun _ t well => ?_) _ _ _
    · change (Watch.approach t.2.problem.2).Well log .trying t.1 s.eval
      rwa [Watch.approach_of_ne (by rw [well.phase]; decide)]
    · refine ⟨well.toPlaced.copies_of_approach, ?_⟩
      obtain ⟨answers, noted, good⟩ := well.clean
      exact ⟨answers, (Watch.approach_answers _).symm.trans noted, good⟩

theorem lineSearch_watched (dir : Direction α d) (alphaMax : α) :
    Step.Leaves (fun s => s.watch.approach.Well log .trying s.trialEval s.eval)
      (lineSearch c dir alphaMax)
      (fun r s => r.2 = s.trialEval ∧ s.watch.Well log .trying s.trialEval s.eval)
      (State.Broken log) := by
  intro s before
  have searched := searchStep_watched watched log s dir alphaMax
  rcases ran : (searchStep c s dir alphaMax).outcome (s.trialEval, s.world) with ⟨f | acc, e, w⟩
  · have failed := searched.error (t := (s.trialEval, s.world)) before ran
    rw [lineSearch, Step.outcome_ofOutcome, ran]
    exact failed
  · have found := searched.ok (t := (s.trialEval, s.world)) before ran
    rw [lineSearch, Step.outcome_ofOutcome, ran]
    exact ⟨rfl, found⟩

/-- The Hessian is one more evaluation, if it is asked for. -/
theorem refreshCurvature_watched :
    Step.Leaves (State.Quiet log) (refreshCurvature c) (fun _ => State.Quiet log)
      (State.Broken log) := by
  intro s quiet
  rw [refreshCurvature, Step.outcome_get_bind, Step.outcome_within, watched]
  cases kind : s.curvature with
  | quasiNewton q last => exact quiet
  | exact old =>
    let reply := (p.hessian s.curr.x.point false 1 s.curr.yc s.curr.yd).run s.world.problem.1
    have asked : (Curvature.refresh p.watched s.curr.x.point s.eval s.curr.yc s.curr.yd).outcome
        (.exact old, s.world.problem) =
        (if reply.1.ok && allFinite (reply.1.onto Dense.zeros).entries then .ok ()
          else .error .hessian,
          (.exact (reply.1.onto Dense.zeros), (reply.2, s.watch.hear
            ⟨.hessian, reply.1.ok, allFinite (reply.1.onto Dense.zeros).entries⟩))) := rfl
    rw [asked]
    by_cases good : (reply.1.ok && allFinite (reply.1.onto Dense.zeros).entries) = true
    · rw [if_pos good]
      exact ⟨⟨quiet.phase, quiet.active, quiet.spare⟩, quiet.clean.hear_good good⟩
    · rw [if_neg good]
      exact ⟨.inr ⟨_, by decide, quiet.phase, quiet.active, quiet.spare⟩,
        quiet.clean.hear_bad (Bool.eq_false_iff.mpr good)⟩

variable [DenseSolver α]

omit watched in
/-- Solving the Newton system is no evaluation. -/
theorem newtonStep_watched :
    Step.Leaves (State.Quiet log) (newtonStep c) (fun _ => State.Quiet log)
      (State.Broken log) := by
  have places {s s' : State α (σ × Watch α d) d} {r : Except (Failure α) (Newton.Solution α d)}
      (ran : (newtonStep c).outcome s = (r, s')) : s.SamePlaces s' := by
    have memory : s'.world.problem = s.world.problem := by
      rw [newtonStep, Step.outcome_ofOutcome] at ran
      obtain ⟨-, rfl⟩ := Prod.mk.inj ran
      exact (State.foldl_record_place
        (fun r : Newton.Rejected α => Event.inertiaRejected r.inertia r.deltaW) _ s).1
    obtain ⟨⟨w, m, rfl⟩, -⟩ := newtonStep_outcome ran
    exact ⟨memory, rfl, rfl⟩
  refine .of_outcomes (fun s sol s' quiet ran => (places ran).quiet quiet) fun s f s' quiet ran => ?_
  have still := (places ran).quiet quiet
  obtain ⟨fault, rfl⟩ := (newtonStep_outcome ran).2.2 f rfl
  exact ⟨still.copied, still.clean⟩

/-- Computing a direction asks for the Hessian at most. -/
theorem searchDirection_watched :
    Step.Leaves (State.Quiet log) (searchDirection c) (fun _ => State.Quiet log)
      (State.Broken log) := by
  unfold searchDirection
  refine (refreshCurvature_watched watched).bind fun _ => newtonStep_watched.bind fun sol => ?_
  have read : Step.Leaves (State.Quiet log) (do
      let s ← get
      return Direction.ofNewton sol s.curr c.bounds s.mu : Run α (σ × Watch α d) d (Direction α d))
      (fun _ => State.Quiet log) (State.Broken log) :=
    .get_bind fun s quiet => .pure fun _ same => same ▸ quiet
  dsimp only
  split
  · exact .bind (Step.Leaves.modify (Q := fun _ => State.Quiet log)
      fun s quiet => (s.recordFrom_places c 3 _).quiet quiet) fun _ => read
  · exact read

/-- A start that succeeds leaves the engine standing, and one that fails tells why. -/
theorem startingProcedure_watched :
    Step.Leaves (fun s => s.Copied ∧ s.watch.answers = log) (startingProcedure c)
      (fun _ => State.Quiet log) (State.Broken log) := by
  unfold startingProcedure
  refine (askStart_watched watched).bind fun x0 => ?_
  dsimp only
  generalize c.bounds.x.pushInside c.settings.kappa1 c.settings.kappa2 x0 = x
  refine .bind (Step.Leaves.modify
    (Q := fun _ s => s.watch.Well log .starting s.eval s.trialEval) fun _ => id) fun _ => ?_
  refine Step.Leaves.bind (Q := fun _ => State.Quiet log) (.within fun s well => ?_) fun _ =>
    .modify fun s quiet => (s.settleStart_places c).quiet quiet
  have asked := Evaluation.all_watched p log s.trialEval x
  rw [watched]
  refine .of_outcomes ?_ ?_
  · rintro _ _ t rfl ran
    exact asked.ok well ran
  · rintro _ q t rfl ran
    exact asked.error well ran

/-- An iteration goes from a standing engine to the next one, and one that fails tells why. -/
theorem advance_watched :
    Step.Leaves (State.Quiet log) (advance c) (fun _ => State.Quiet log) (State.Broken log) := by
  unfold advance
  refine (searchDirection_watched watched).bind fun dir => .get_bind fun s quiet => ?_
  have before : s.watch.approach.Well log .trying s.trialEval s.eval := by
    refine ⟨quiet.toPlaced.approach, ?_⟩
    obtain ⟨answers, noted, good⟩ := quiet.clean
    exact ⟨answers, (Watch.approach_answers _).trans noted, good⟩
  refine ((lineSearch_watched watched dir _).weaken ?_ fun _ _ => id).bind ?_
  · rintro _ rfl
    exact before
  rintro ⟨acc, e⟩
  -- the two places change their parts before the derivatives are asked for
  refine .bind (Step.Leaves.modify
    (Q := fun _ s => s.watch.arrive.Well log .standing s.eval s.trialEval) ?_) fun _ =>
      .get_bind fun moved well => ?_
  · rintro s ⟨rfl, well⟩
    exact ⟨⟨rfl, well.active, well.spare⟩, well.clean⟩
  refine Step.Leaves.bind (Q := fun _ => State.Quiet log) (.within ?_) fun _ =>
    .modify fun s quiet => (s.complete_places c dir acc _).quiet quiet
  rintro moved rfl
  have asked := Evaluation.derivs_watched p log moved.trialEval moved.curr.x.point
  rw [watched]
  refine .of_outcomes ?_ ?_
  · rintro _ _ t rfl ran
    exact asked.ok well ran
  · rintro _ q t rfl ran
    have ill := asked.error well ran
    exact ⟨.inr ⟨_, by decide, ill.toPlaced⟩, ill.failed⟩

/-- Between two passes the engine is standing. -/
theorem preserved_quiet : Preserved c fun _ s => s.Quiet log where
  check := fun _ _ quiet => quiet
  report := fun _ s quiet => (s.reported_places c).quiet quiet
  step := fun _ _ _ quiet ran => (advance_watched watched).ok quiet ran

/-- What a run leaves: the copies are right, and the last evaluation failed if and only if the
status says so. -/
def State.Concluded (log : List Answer) (status : Status) (s : State α (σ × Watch α d) d) : Prop :=
  s.Copied ∧ if status = .errorInEvaluation then s.watch.Failed log else s.watch.Clean log

omit watched [Scalar α] [DenseSolver α] in
theorem State.Broken.concluded {f : Failure α} (broken : s.Broken log f) :
    s.Concluded log (statusOf f) := by
  cases f <;> exact ⟨broken.1, broken.2⟩

omit watched [Scalar α] [DenseSolver α] in
theorem State.Concluded.of_places {status : Status} (concluded : s.Concluded log status)
    (same : s.SamePlaces s') : s'.Concluded log status := by
  refine ⟨same.copied concluded.1, ?_⟩
  rw [State.watch, same.1]
  exact concluded.2

omit watched [Scalar α] [DenseSolver α] in
theorem State.Quiet.concluded (quiet : s.Quiet log) {status : Status}
    (other : status ≠ .errorInEvaluation) : s.Concluded log status := by
  refine ⟨quiet.copied, ?_⟩
  rw [if_neg other]
  exact quiet.clean

/-- However the main loop ends, the status tells whether an evaluation failed. -/
theorem Course.concluded {obs : Observer α d ω} {left : Nat} {o o' : ω}
    {last : State α (σ × Watch α d) d} {reports : List (State α (σ × Watch α d) d)}
    {ending : Except (Failure α) Status}
    (course : Course c obs left s o reports ending last o') (quiet : s.Quiet log) :
    last.Concluded log (endingStatus ending) := by
  have regular {status : Status} (ended : ending = .ok status) : status ≠ .errorInEvaluation := by
    rintro rfl
    subst ended
    cases course.ending_ok
  cases course.exit_holds (preserved_quiet watched) [] quiet with
  | spent quiet | stopped quiet => exact quiet.concluded (regular rfl)
  | decided quiet verdict => exact State.Quiet.concluded (s := State.checked _ |>.2) quiet (regular rfl)
  | failed quiet step => exact ((advance_watched watched).error quiet step).concluded

/-- A run from start to end. -/
theorem outcome_watched (obs : Observer α d ω) (o : ω)
    (before : s.Copied ∧ s.watch.answers = log) :
    (outcome c obs s o).2.1.Concluded log (outcome c obs s o).1 := by
  unfold outcome
  rcases started : (startingProcedure c).outcome s with ⟨cause | _, s₁⟩
  · have broken := (startingProcedure_watched watched).error before started
    cases cause with
    | evaluation q => exact broken.concluded.of_places (s₁.recordFrom_places c 1 _)
    | invalidProblem | invalidOption => exact broken.concluded
    | newton | lineSearch => exact ⟨broken.1, broken.2⟩
  · have quiet := (startingProcedure_watched watched).ok before started
    rcases looped : (iterations c obs).outcome (s₁, o) with ⟨cause | status, last, o'⟩
    · obtain ⟨reports, course⟩ := iterations_course looped
      have concluded := course.concluded watched ((s₁.headed_places c).quiet quiet)
      simp only [looped]
      exact concluded.of_places (last.recordFrom_places c 1 _)
    · obtain ⟨reports, course⟩ := iterations_course looped
      simp only [looped]
      exact course.concluded watched ((s₁.headed_places c).quiet quiet)

end Steps

namespace Engine

variable {e e' : Engine α (σ × Watch α d) d}

/-- Validating a problem is no evaluation. -/
theorem bounds_watched (p : Problem α σ d) (rule : Bounds.FixedRule α) (w : σ × Watch α d) :
    ((Bounds.ofProblem p.watched rule).run w).2.2 = w.2 := by
  simp only [Bounds.ofProblem, run_bind]
  split
  · rfl
  · simp only [run_bind]
    split
    · rfl
    · rfl

/-- A new engine for a problem under fresh watch has its copies right. -/
theorem create_watched {settings : InteriorSettings α} {w w' : World α (σ × Watch α d)}
    (fresh : w.problem.2 = .fresh) (created : (create p.watched settings).outcome w = (.ok e, w')) :
    e.setup.problem = p.watched ∧ e.state.Copied := by
  have unasked : w'.problem.2 = .fresh := by
    have kept := bounds_watched p (.ofSettings settings) w.problem
    rw [fresh] at kept
    rw [create, Step.outcome_ofOutcome] at created
    split at created
    · cases created
    · generalize (Bounds.ofProblem p.watched (.ofSettings settings)).run w.problem = queried
        at kept created
      obtain ⟨fault | b, inner⟩ := queried
      · cases created
      · dsimp only at created
        split at created
        · cases created
        · cases created
          split
          · exact kept
          · exact kept
  obtain ⟨-, b, exact, inner, -, -, rfl⟩ := create_parts created
  refine ⟨rfl, .inr ⟨.standing, by decide, ?_⟩⟩
  change Watch.Placed w'.problem.2 .standing .blank .blank
  rw [unasked]
  exact ⟨rfl, rfl, rfl⟩

variable [DenseSolver α]

/-- A run ends with right copies, and its status tells whether an evaluation failed. -/
theorem run_watched (watched : e.setup.problem = p.watched) (copied : e.state.Copied)
    (obs : Observer α d ω) (o : ω) :
    (e.run obs o).2.1.state.Concluded e.state.watch.answers (e.run obs o).1.status := by
  have opened : e.state.SamePlaces e.opened := by
    refine ⟨State.recordFrom_problem _ e.setup 1 _, ?_⟩
    obtain ⟨w, opened⟩ := e.opened_eq
    rw [opened]
    exact ⟨rfl, rfl⟩
  have ran := outcome_watched watched (s := e.opened) obs o
    ⟨opened.copied copied, congrArg (·.2.answers) opened.1⟩
  exact ran.of_places (State.recordFrom_places _ e.setup 1 _)

theorem Reaches.copied (runs : e.Reaches e') (watched : e.setup.problem = p.watched)
    (copied : e.state.Copied) : e'.state.Copied := by
  induction runs with
  | refl => exact copied
  | run before obs o ih => exact (run_watched (before.setup_eq ▸ watched) ih obs o).1

end Engine

end Barrier

end SmoothOpt
