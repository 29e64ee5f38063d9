import SmoothOpt.Proofs.Barrier.Coherence
import SmoothOpt.Proofs.Problem.Announcement

/-!
The interior point method announces every point.

Between two passes the last evaluation was at the current point, so the Hessian may be asked there
without a new announcement. Every trial of a line search announces its point, the last trial is the
accepted one, and the engine moves there before it asks for the derivatives. Whatever fails on the
way, the next evaluation is the first one at an announced point. All of this is said of any tracked
problem.
-/
namespace SmoothOpt

open Scalar Linear

/-- A search that tries step lengths one after the other ends with a trial of the accepted one. -/
theorem LineSearch.backtrackFrom_ensures {α τ : Type} [Scalar α] {l : LineSearch α}
    {filter : Filter α} {current : Measures α} {slope : α}
    {trial : α → Step (Failure α) τ (Measures α)} {onReject : Rejection α → τ → τ}
    {P : τ → Prop} {Q : α → τ → Prop} (tried : ∀ a, Step.Ensures P (trial a) (fun _ => Q a) P)
    (rejected : ∀ a r t, Q a t → P (onReject r t)) (left : Nat) :
    ∀ (backtracks : Nat) (alpha : α), Step.Ensures P
      (l.backtrackFrom filter current slope trial onReject left backtracks alpha)
      (fun acc => Q acc.alpha) P := by
  induction left with
  | zero =>
    intro backtracks alpha
    exact .throw fun _ => id
  | succ left ih =>
    intro backtracks alpha
    rw [backtrackFrom]
    refine (tried alpha).bind fun measured => ?_
    cases l.accept filter current measured alpha slope with
    | some kind => exact .pure fun _ => id
    | none =>
      refine .bind (Step.Ensures.modify (Q := fun _ => P) (rejected alpha _)) fun _ => ?_
      dsimp only
      split
      · exact .throw fun _ => id
      · exact ih _ _

namespace Barrier

variable {α σ ω : Type} {d : Dims} {c : Setup α σ d}

namespace State

def SamePlace (s s' : State α σ d) : Prop :=
  s'.world.problem = s.world.problem ∧ s'.curr.x.point = s.curr.x.point

/-- The last evaluation was at the current point. -/
def Standing (At : Vector α d.n → σ → Prop) (s : State α σ d) : Prop :=
  At s.curr.x.point s.world.problem

theorem Standing.of_place {At : Vector α d.n → σ → Prop} {s s' : State α σ d}
    (h : s.Standing At) (same : s.SamePlace s') : s'.Standing At := by
  rw [Standing, same.1, same.2]
  exact h

theorem SamePlace.trans {s₁ s₂ s₃ : State α σ d} (first : s₁.SamePlace s₂)
    (second : s₂.SamePlace s₃) : s₁.SamePlace s₃ :=
  ⟨second.1.trans first.1, second.2.trans first.2⟩

theorem foldl_record_place {β : Type} (event : β → Event α) (l : List β) (s : State α σ d) :
    s.SamePlace (l.foldl (fun s r => s.record (event r)) s) := by
  induction l generalizing s with
  | nil => exact ⟨rfl, rfl⟩
  | cons r l ih => exact ih (s.record (event r))

variable [Scalar α]

theorem recordFrom_place (s : State α σ d) (c : Setup α σ d) (verbosity : Nat) (e : Event α) :
    s.SamePlace (s.recordFrom c verbosity e) := by
  refine ⟨s.recordFrom_problem c verbosity e, ?_⟩
  obtain ⟨w, recorded⟩ := s.recordFrom_eq c verbosity e
  rw [recorded]

theorem headed_place (s : State α σ d) (c : Setup α σ d) : s.SamePlace (s.headed c) :=
  (s.recordFrom_place c 2 .interiorHeader).trans (recordFrom_place _ c 2 .interiorRule)

theorem reported_place (s : State α σ d) (c : Setup α σ d) : s.SamePlace (s.reported c) := by
  apply updateBarrier_preserves (P := s.SamePlace)
  · intro t w memory same _ _
    exact ⟨memory.trans same.1, same.2⟩
  · exact ⟨rfl, rfl⟩

variable [DenseSolver α]

theorem startMultipliers_place (s : State α σ d) (c : Setup α σ d) :
    s.SamePlace (s.startMultipliers c) := by
  unfold startMultipliers
  split
  · dsimp only
    split
    · exact ⟨rfl, rfl⟩
    · exact ⟨rfl, rfl⟩
  · exact ⟨rfl, rfl⟩

theorem settleStart_place (s : State α σ d) (c : Setup α σ d) : s.SamePlace (s.settleStart c) := by
  let placed : State α σ d :=
    { s with curr := startIterate c s.curr.x.point s.eval s.curr (s.curr.yc, s.curr.yd) }
  have chosen : s.SamePlace (placed.startMultipliers c) := placed.startMultipliers_place c
  exact chosen.trans (recordFrom_place _ c 3 _)

theorem complete_place (s : State α σ d) (c : Setup α σ d) (dir : Direction α d) (acc : Accepted α)
    (alphaDual : α) : s.SamePlace (s.complete c dir acc alphaDual) := by
  refine ⟨?_, ?_⟩
  · unfold complete
    dsimp only
    rw [recordFrom_problem]
    split
    · rfl
    · rfl
  · obtain ⟨w, y, completed⟩ := complete_eq s c dir acc alphaDual
    rw [completed]
    rfl

end State

section Steps

variable {Fine : σ → Prop} {At : Vector α d.n → σ → Prop}

/-- An evaluation at the current point moves nothing. -/
theorem evaluating_ensures {P Q E : σ → Prop} {x : Vector α d.n}
    {step : Step Quantity (Evaluation α d × σ) Unit}
    (h : Step.Ensures (fun t => P t.2) step (fun _ t => Q t.2) fun t => E t.2) :
    Step.Ensures (fun s : State α σ d => P s.world.problem ∧ s.curr.x.point = x) (evaluating step)
      (fun _ s => Q s.world.problem ∧ s.curr.x.point = x) fun s => E s.world.problem := by
  apply Step.Ensures.within
  intro s holds
  refine h.weaken ?_ ?_ ?_
  · rintro t rfl
    exact holds.1
  · intro _ t after
    exact ⟨after, holds.2⟩
  · intro t after
    exact after

/-- Solving the Newton system is no evaluation. -/
theorem newtonStep_standing [Scalar α] [DenseSolver α] :
    Step.Keeps (State.Standing At) (newtonStep c) := by
  refine .of_state fun s standing => ?_
  rw [newtonStep, Step.outcome_ofOutcome]
  exact State.Standing.of_place standing (State.foldl_record_place
    (fun r : Newton.Rejected α => Event.inertiaRejected r.inertia r.deltaW) _ s)

variable [Scalar α] (tracked : c.problem.Tracked Fine At)

include tracked

/-- Asking for the starting point is no evaluation. -/
theorem askStart_tracked : Step.Keeps (fun s => Fine s.world.problem) (askStart c) :=
  .of_state fun _ h => tracked.start h

/-- A trial announces its point. -/
theorem measureTrial_tracked (s : State α σ d) (dir : Direction α d) (alpha : α) :
    Step.Ensures (fun t => Fine t.2.problem) (measureTrial c s dir alpha)
      (fun _ t => At (s.curr.trial dir c.bounds alpha).x.point t.2.problem)
      fun t => Fine t.2.problem := by
  unfold measureTrial
  refine Step.Ensures.bind (Q := fun _ t =>
    At (s.curr.trial dir c.bounds alpha).x.point t.2.problem) (.within ?_) fun _ => .get_bind ?_
  · intro t fine
    refine (tracked.funcs _).weaken ?_ (fun _ _ => id) fun _ => id
    rintro _ rfl
    exact fine
  · intro t here
    apply Step.Ensures.pure
    rintro _ rfl
    exact here

/-- The last trial of a line search is the accepted one. -/
theorem searchStep_tracked (s : State α σ d) (dir : Direction α d) (alphaMax : α) :
    Step.Ensures (fun t => Fine t.2.problem) (searchStep c s dir alphaMax)
      (fun acc t => At (s.curr.trial dir c.bounds acc.alpha).x.point t.2.problem)
      fun t => Fine t.2.problem := by
  have tried := measureTrial_tracked tracked s dir
  unfold searchStep
  split
  · exact (tried alphaMax).bind fun _ => .pure fun _ => id
  · refine LineSearch.backtrackFrom_ensures tried ?_ _ _ _
    intro alpha rejection t here
    exact tracked.fine here

theorem lineSearch_tracked (dir : Direction α d) (alphaMax : α) :
    Step.Ensures (fun s => Fine s.world.problem) (lineSearch c dir alphaMax)
      (fun r s => At (s.curr.trial dir c.bounds r.1.alpha).x.point s.world.problem)
      fun s => Fine s.world.problem := by
  intro s fine
  have searched := searchStep_tracked tracked s dir alphaMax
  rcases ran : (searchStep c s dir alphaMax).outcome (s.trialEval, s.world) with ⟨f | acc, e, w⟩
  · have failed := searched.error (t := (s.trialEval, s.world)) fine ran
    rw [lineSearch, Step.outcome_ofOutcome, ran]
    exact failed
  · have found := searched.ok (t := (s.trialEval, s.world)) fine ran
    rw [lineSearch, Step.outcome_ofOutcome, ran]
    exact found

/-- The Hessian is asked at the point of the last evaluation. -/
theorem refreshCurvature_tracked :
    Step.Keeps (State.Standing At) (refreshCurvature c) := by
  refine .of_state fun s standing => ?_
  rw [refreshCurvature, Step.outcome_get_bind, Step.outcome_within]
  cases kind : s.curvature with
  | quasiNewton q last => exact standing
  | exact hess => exact tracked.hessian standing

variable [DenseSolver α]

/-- A successful start leaves the engine at the point it evaluated. -/
theorem startingProcedure_tracked :
    Step.Ensures (fun s => Fine s.world.problem) (startingProcedure c)
      (fun _ s => s.Standing At) fun s => Fine s.world.problem := by
  unfold startingProcedure
  refine Step.Ensures.bind (askStart_tracked tracked) fun x0 => ?_
  dsimp only
  generalize c.bounds.x.pushInside c.settings.kappa1 c.settings.kappa2 x0 = x
  refine Step.Ensures.bind (Q := fun _ s => Fine s.world.problem ∧ s.curr.x.point = x)
    (.modify fun s fine => ⟨fine, rfl⟩) fun _ => ?_
  refine (evaluating_ensures (tracked.all x)).bind fun _ => .modify ?_
  rintro s ⟨here, rfl⟩
  exact State.Standing.of_place here (s.settleStart_place c)

/-- Computing a direction stays at the current point. -/
theorem searchDirection_tracked : Step.Keeps (State.Standing At) (searchDirection c) := by
  unfold searchDirection
  refine .bind (refreshCurvature_tracked tracked) fun _ =>
    .bind (newtonStep_standing) fun sol => ?_
  have read : Step.Keeps (State.Standing At) (do
      let s ← get
      return Direction.ofNewton sol s.curr c.bounds s.mu : Run α σ d (Direction α d)) :=
    .of_state fun _ => id
  dsimp only
  split
  · exact .bind (.modify fun s standing => standing.of_place (s.recordFrom_place c 3 _))
      fun _ => read
  · exact read

/-- An iteration goes from a point that was evaluated to the next one. -/
theorem advance_tracked :
    Step.Ensures (State.Standing At) (advance c) (fun _ s => s.Standing At)
      fun s => Fine s.world.problem := by
  unfold advance
  have directed := Step.Ensures.weaken (searchDirection_tracked (c := c) tracked) (fun _ => id)
    (fun _ _ => tracked.fine) fun _ => tracked.fine
  refine directed.bind fun dir => .get_bind fun s fine => ?_
  refine Step.Ensures.bind (Q := fun r s =>
    At (s.curr.trial dir c.bounds r.1.alpha).x.point s.world.problem) ?_ ?_
  · refine (lineSearch_tracked tracked dir _).weaken ?_ (fun _ _ => id) fun _ => id
    rintro _ rfl
    exact fine
  rintro ⟨acc, e⟩
  -- the engine stands at the accepted trial before it asks for the derivatives there
  refine Step.Ensures.bind (Q := fun _ s => s.Standing At) (.modify fun _ => id) fun _ =>
    .get_bind fun moved standing => ?_
  have asked := evaluating_ensures (x := moved.curr.x.point)
    (tracked.derivs moved.curr.x.point)
  refine (asked.weaken ?_ (fun _ _ => id) fun _ => tracked.fine).bind fun _ => .modify ?_
  · rintro _ rfl
    exact ⟨standing, rfl⟩
  · rintro t ⟨here, same⟩
    rw [← same] at here
    exact State.Standing.of_place here (t.complete_place c dir acc _)

/-- Between two passes the engine stands at its point. -/
theorem preserved_standing : Preserved c fun _ s => s.Standing At where
  check := fun _ _ standing => standing
  report := fun _ s standing => standing.of_place (s.reported_place c)
  step := fun _ _ _ standing ran => (advance_tracked tracked).ok standing ran

/-- However the main loop ends, the problem's memory is fine. -/
theorem iterations_tracked (obs : Observer α d ω) :
    Step.Ensures (fun t => t.1.Standing At) (iterations c obs) (fun _ t => Fine t.1.world.problem)
      fun t => Fine t.1.world.problem := by
  rintro ⟨s, o⟩ standing
  rcases looped : (iterations c obs).outcome (s, o) with ⟨ending, last, o'⟩
  obtain ⟨reports, course⟩ := iterations_course looped
  have left := course.exit_holds (preserved_standing tracked) []
    (standing.of_place (s.headed_place c))
  have fine : Fine last.world.problem := by
    cases left with
    | spent holds | decided holds | stopped holds => exact tracked.fine holds
    | failed holds step => exact (advance_tracked tracked).error holds step
  cases ending with
  | ok status => exact fine
  | error cause => exact fine

/-- A run from start to end. -/
theorem outcome_tracked (obs : Observer α d ω) (o : ω) {s : State α σ d}
    (fine : Fine s.world.problem) : Fine (outcome c obs s o).2.1.world.problem := by
  unfold outcome
  rcases started : (startingProcedure c).outcome s with ⟨cause | _, s₁⟩
  · have left := (startingProcedure_tracked tracked).error fine started
    cases cause with
    | evaluation q =>
      have same := s₁.recordFrom_problem c 1 (.interiorStopped s₁.iter (.evaluation q))
      exact same ▸ left
    | _ => exact left
  · have standing := (startingProcedure_tracked tracked).ok fine started
    rcases looped : (iterations c obs).outcome (s₁, o) with ⟨cause | status, last, o'⟩
    · have left := (iterations_tracked tracked obs).error (t := (s₁, o)) standing looped
      have same := last.recordFrom_problem c 1 (.interiorStopped last.iter cause)
      simp only [looped]
      exact same ▸ left
    · have left := (iterations_tracked tracked obs).ok (t := (s₁, o)) standing looped
      simp only [looped]
      exact left

end Steps

namespace Engine

variable [Scalar α] {Fine : σ → Prop} {At : Vector α d.n → σ → Prop}

/-- Validating a problem is no evaluation. -/
theorem create_tracked {p : Problem α σ d} (tracked : p.Tracked Fine At)
    (settings : InteriorSettings α) :
    Step.Ensures (fun w => Fine w.problem) (create p settings)
      (fun e _ => e.setup.problem = p ∧ Fine e.state.world.problem) fun w => Fine w.problem := by
  intro w fine
  have validated := tracked.bounds (.ofSettings settings) fine
  rw [create, Step.outcome_ofOutcome]
  cases Dims.validate d with
  | error cause => exact fine
  | ok _ =>
    generalize (Bounds.ofProblem p (.ofSettings settings)).run w.problem = queried at validated ⊢
    obtain ⟨cause | bounds, inner⟩ := queried
    · exact validated
    · cases useExact p settings with
      | error cause =>
        dsimp only
        split
        · exact validated
        · exact validated
      | ok exact =>
        refine ⟨rfl, ?_⟩
        dsimp only [State.initial]
        split
        · exact validated
        · exact validated

variable [DenseSolver α]

/-- A run keeps the memory of a tracked problem fine. -/
theorem run_tracked {e : Engine α σ d} (tracked : e.setup.problem.Tracked Fine At)
    (obs : Observer α d ω) (o : ω) (fine : Fine e.state.world.problem) :
    Fine (e.run obs o).2.1.state.world.problem := by
  have finished : (e.run obs o).2.1.state.world.problem =
      (outcome e.setup obs e.opened o).2.1.world.problem :=
    State.recordFrom_problem _ e.setup 1 _
  rw [finished]
  refine outcome_tracked tracked obs o ?_
  rw [Engine.opened, State.recordFrom_problem]
  exact fine

theorem Reaches.tracked {e e' : Engine α σ d} (tracked : e.setup.problem.Tracked Fine At)
    (fine : Fine e.state.world.problem) (runs : e.Reaches e') : Fine e'.state.world.problem := by
  induction runs with
  | refl => exact fine
  | run before obs o ih => exact run_tracked (before.setup_eq ▸ tracked) obs o ih

end Engine

end Barrier

end SmoothOpt
