import Mathlib
import SmoothOpt.Penalty.Engine
import SmoothOpt.Proofs.Barrier.Announcement
import SmoothOpt.Proofs.Barrier.Ray

/-!
The augmented Lagrangian method announces every point of the user's problem.

Each callback of the view evaluates the user's problem from scratch, so whatever flag it is given it
announces the user's point, and the Hessian is asked at the point evaluated right before. The view
is tracked by the user's memory alone, and the inner solves are runs on a tracked problem. Between
them the engine itself calls the problem only with announced points.
-/
namespace SmoothOpt

open Scalar Linear

namespace Penalty

variable {α σ ω : Type} {d : Dims} {Fine : σ → Prop} {At : Vector α d.n → σ → Prop}

namespace State

/-- The calls on the user's problem are fine so far. -/
def Tracks (Fine : σ → Prop) (s : State α σ d) : Prop := Fine s.world.problem

variable {s : State α σ d}

theorem Tracks.recordFrom (h : s.Tracks Fine) (c : Setup α σ d) (verbosity : Nat) (e : Event α) :
    (s.recordFrom c verbosity e).Tracks Fine := by
  unfold State.recordFrom
  split
  · exact h
  · exact h

theorem Tracks.recordIteration (h : s.Tracks Fine) (c : Setup α σ d) :
    (s.recordIteration c).Tracks Fine := by
  unfold State.recordIteration
  split
  · exact (h.recordFrom c 2 _).recordFrom c 2 _
  · exact h.recordFrom c 2 _

theorem Tracks.startStopped (h : s.Tracks Fine) (c : Setup α σ d) (cause : Failure α) :
    (s.startStopped c cause).2.Tracks Fine := by
  cases cause with
  | evaluation q => exact h.recordFrom c 1 _
  | _ => exact h

theorem Tracks.takeInner [Scalar α] (h : s.Tracks Fine) (res : SolveResult α (boxed d)) :
    (s.takeInner res).Tracks Fine := by
  unfold State.takeInner
  dsimp only
  split
  · split
    · exact h
    · exact h
  · split
    · exact h
    · exact h

end State

theorem calling_tracked {β : Type} {call : State α σ d → StateM σ β}
    (called : ∀ s w, Fine w → Fine ((call s).run w).2) :
    Step.Keeps (State.Tracks Fine) (calling call) :=
  .of_state fun s fine => called s s.world.problem fine

variable [Scalar α]

namespace View

variable {p : Problem α σ d} (tracked : p.Tracked Fine At)

include tracked

/-- An evaluation from scratch announces its point, and ends there if it succeeds. -/
theorem evaluateAt_tracked (z : Vector α (d.n + d.mIneq)) (derivatives : Bool) {w w' : σ}
    {r : Option (Evaluation α d × Vector α (entryCount d))} (fine : Fine w)
    (ran : (evaluateAt p z derivatives).run w = (r, w')) :
    Fine w' ∧ (r.isSome = true → At (variablePart z) w') := by
  have evaluated : Step.Ensures (fun t => Fine t.2)
      (if derivatives then Evaluation.all p (variablePart z)
        else Evaluation.funcs p (variablePart z))
      (fun _ t => At (variablePart z) t.2) fun t => Fine t.2 := by
    split
    · exact tracked.all _
    · exact tracked.funcs _
  have left := evaluated (.blank, w) fine
  unfold evaluateAt StateT.run at ran
  dsimp only at ran
  split at ran
  · rename_i ended
    obtain ⟨rfl, rfl⟩ := Prod.mk.inj ran
    rw [ended] at left
    exact ⟨tracked.fine left, fun _ => left⟩
  · rename_i ended
    obtain ⟨rfl, rfl⟩ := Prod.mk.inj ran
    rw [ended] at left
    exact ⟨left, fun some => by cases some⟩

/-- What follows an evaluation from scratch may assume that a successful one ended at its point. -/
theorem evaluateAt_bind_tracked {β : Type} (z : Vector α (d.n + d.mIneq)) (derivatives : Bool)
    {next : Option (Evaluation α d × Vector α (entryCount d)) → StateM σ β}
    (kept : ∀ r w, Fine w → (r.isSome = true → At (variablePart z) w) → Fine ((next r).run w).2)
    {w : σ} (fine : Fine w) : Fine ((evaluateAt p z derivatives >>= next).run w).2 := by
  rcases ran : (evaluateAt p z derivatives).run w with ⟨r, w'⟩
  obtain ⟨left, here⟩ := evaluateAt_tracked tracked z derivatives fine ran
  rw [run_bind, ran]
  exact kept r w' left here

/-- The subproblem makes fine calls, whatever it is asked and wherever. -/
theorem problem_tracked (v : View α d) : (v.problem p).Tracked Fine (fun _ => Fine) where
  fine h := h
  variableBounds h := h
  inequalityBounds h := h
  start h := h
  objective := by
    intro z w
    refine evaluateAt_bind_tracked tracked z false fun r w fine _ => ?_
    cases r with
    | none => exact fine
    | some => exact fine
  newInequalities h := h
  equalities h := h
  inequalities h := h
  gradient := by
    intro z w
    refine evaluateAt_bind_tracked tracked z true fun r w fine _ => ?_
    cases r with
    | none => exact fine
    | some => exact fine
  equalityJacobian h := h
  inequalityJacobian h := h
  hessian := by
    intro z w weight yc yd
    refine evaluateAt_bind_tracked tracked z true fun r w fine here => ?_
    cases r with
    | none => exact fine
    | some =>
      -- the user's Hessian is asked at the point that was just evaluated
      simp only [run_bind]
      split
      · exact tracked.fine (tracked.hessian (here rfl))
      · exact tracked.fine (tracked.hessian (here rfl))

/-- The user's starting point is announced with its inequality bodies. -/
theorem userStart_tracked (v : View α d) (z : Vector α (d.n + d.mIneq)) {w : σ} (fine : Fine w) :
    Fine ((v.userStart p z).run w).2 := by
  have asked := tracked.start fine
  simp only [userStart, run_bind]
  split
  · exact asked
  · simp only [run_bind]
    split
    · exact tracked.fine (tracked.newInequalities asked)
    · exact tracked.fine (tracked.newInequalities asked)

theorem userObjective_tracked (z : Vector α (d.n + d.mIneq)) (old : α) {w : σ} (fine : Fine w) :
    Fine ((userObjective p z old).run w).2 := tracked.fine (tracked.objective fine)

theorem residuals_tracked (v : View α d) (z : Vector α (d.n + d.mIneq)) {w : σ} :
    Fine w → Fine ((v.residuals p z).run w).2 := by
  refine evaluateAt_bind_tracked tracked z true fun r w fine _ => ?_
  cases r with
  | none => exact fine
  | some => exact fine

end View

section Steps

variable {c : Setup α σ d} (tracked : c.problem.Tracked Fine At)

include tracked

theorem evaluateObjective_tracked : Step.Keeps (State.Tracks Fine) (evaluateObjective c) := by
  unfold evaluateObjective
  refine .bind (calling_tracked fun s w => View.userObjective_tracked tracked s.z s.obj) ?_
  rintro ⟨ok, f⟩
  refine .bind (.modify fun _ => id) fun _ => ?_
  split
  · exact .throw fun _ => id
  · exact .pure fun _ => id

theorem evaluateErrors_tracked : Step.Keeps (State.Tracks Fine) (evaluateErrors c) := by
  unfold evaluateErrors
  refine .bind (calling_tracked fun s w => s.view.residuals_tracked tracked s.z) fun r => ?_
  cases r with
  | none => exact .throw fun _ => id
  | some r =>
    refine .bind (.modify fun _ => id) fun _ => ?_
    dsimp only
    split
    · exact .throw fun _ => id
    · exact .modify fun _ => id

theorem prepare_tracked : Step.Keeps (State.Tracks Fine) (prepare c) := by
  unfold prepare
  refine .bind (calling_tracked fun s w => s.view.userStart_tracked tracked s.z) ?_
  rintro ⟨ok, z⟩
  refine .bind (.modify fun _ => id) fun _ => ?_
  dsimp only
  split
  · exact .throw fun _ => id
  · refine .bind (.modify fun _ => id) fun _ => .bind (evaluateObjective_tracked tracked) fun _ =>
      .bind (evaluateErrors_tracked tracked) fun _ => .bind (.modify fun _ => id) fun _ =>
        .get_bind fun s fine => ?_
    refine .bind (Q := fun _ => State.Tracks Fine) (.set fun _ _ => ?_) fun _ => .pure fun _ => id
    apply State.Tracks.recordFrom
    exact fine

variable [DenseSolver α]

/-- An inner solve is a run on the view. -/
theorem solveSubproblem_tracked : Step.Keeps (State.Tracks Fine) (solveSubproblem c) := by
  refine .of_state fun s fine => ?_
  have viewed := s.view.problem_tracked tracked
  rw [solveSubproblem, Step.outcome_ofOutcome]
  rcases created : (Barrier.Engine.create (s.view.problem c.problem) c.settings.inner).outcome
    s.world with ⟨cause | engine, w⟩
  · exact (Barrier.Engine.create_tracked viewed _).error fine created
  · obtain ⟨same, ready⟩ := (Barrier.Engine.create_tracked viewed _).ok fine created
    rw [← same] at viewed
    have solved := engine.run_tracked viewed Observer.silent () ready
    exact State.Tracks.takeInner (s := { s with world := _ }) solved _

/-- A major iteration evaluates only at announced points. -/
theorem pass_tracked (obs : Observer α d ω) :
    Step.Keeps (fun t => t.1.Tracks Fine) (pass c obs) := by
  unfold pass
  refine .get_bind ?_
  rintro ⟨s, o⟩ fine
  refine .bind (Q := fun _ t => t.1.Tracks Fine) (.set fun _ _ => fine.recordIteration c)
    fun _ => ?_
  dsimp only
  split
  · exact .pure fun _ => id
  refine Step.Keeps.within (Q := State.Tracks Fine) ?_ (fun _ => id) fun _ _ _ => id
  refine .bind (solveSubproblem_tracked tracked) fun status => .bind (.modify fun _ => id) fun _ =>
    .bind (evaluateObjective_tracked tracked) fun _ => .bind (evaluateErrors_tracked tracked)
      fun _ => ?_
  split
  · exact .pure fun _ => id
  refine .get_bind fun s fine => .bind (Q := fun _ => State.Tracks Fine) (.set fun _ _ => fine)
    fun _ => ?_
  split
  · exact .pure fun _ => id
  · exact .bind (Q := fun _ => State.Tracks Fine) (.modify fun _ => id) fun _ => .pure fun _ => id

theorem passes_tracked (obs : Observer α d ω) (left : Nat) :
    Step.Keeps (fun t => t.1.Tracks Fine) (passes c obs left) := by
  induction left with
  | zero => exact .pure fun _ => id
  | succ left ih =>
    unfold passes
    refine .bind (pass_tracked tracked obs) fun verdict => ?_
    cases verdict with
    | some status => exact .pure fun _ => id
    | none => exact ih

/-- A run from start to end. -/
theorem outcome_tracked (obs : Observer α d ω) (o : ω) {s : State α σ d} (fine : s.Tracks Fine) :
    (outcome c obs s o).2.1.Tracks Fine := by
  unfold outcome
  rcases prepared : (prepare c).outcome s with ⟨cause | _ | status, s₁⟩
  · exact ((prepare_tracked tracked).outcome fine prepared).startStopped c cause
  · have ready := (prepare_tracked tracked).outcome fine prepared
    rcases looped : (passes c obs c.settings.maxIter).outcome (s₁, o) with
      ⟨cause | status, last, o'⟩
    · have left := (passes_tracked tracked obs _).outcome (t := (s₁, o)) ready looped
      simp only [looped]
      exact left.recordFrom c 1 _
    · have left := (passes_tracked tracked obs _).outcome (t := (s₁, o)) ready looped
      simp only [looped]
      exact left
  · exact (prepare_tracked tracked).outcome fine prepared

end Steps

namespace Engine

variable [DenseSolver α]

theorem run_tracked {e : Engine α σ d} (tracked : e.setup.problem.Tracked Fine At)
    (obs : Observer α d ω) (o : ω) (fine : e.state.Tracks Fine) :
    (e.run obs o).2.1.state.Tracks Fine := by
  refine State.Tracks.recordFrom ?_ e.setup 1 _
  apply outcome_tracked tracked obs o
  apply State.Tracks.recordFrom
  exact fine

inductive Reaches (e : Engine α σ d) : Engine α σ d → Prop
  | refl : Reaches e e
  | run {e' : Engine α σ d} (before : Reaches e e') {ω : Type} (obs : Observer α d ω) (o : ω) :
      Reaches e (e'.run obs o).2.1

theorem Reaches.setup_eq {e e' : Engine α σ d} (runs : e.Reaches e') : e'.setup = e.setup := by
  induction runs with
  | refl => rfl
  | run before obs o ih => exact ih

theorem Reaches.tracked {e e' : Engine α σ d} (tracked : e.setup.problem.Tracked Fine At)
    (fine : e.state.Tracks Fine) (runs : e.Reaches e') : e'.state.Tracks Fine := by
  induction runs with
  | refl => exact fine
  | run before obs o ih => exact run_tracked (before.setup_eq ▸ tracked) obs o ih

end Engine

end Penalty

section Runs

variable {α σ : Type} [Scalar α] [DenseSolver α] {d : Dims}

/-- The evaluations that consecutive runs make on a problem, whatever was recorded before them, are
announced: those of the interior point method, and those of the augmented Lagrangian method through
the view and all its inner solves. -/
theorem runs_announce_points (p : Problem α σ d) :
    (∀ e e' : Barrier.Engine α (σ × List (Call α d.n)) d, e.setup.problem = p.recorded →
      e.Reaches e' → ∃ calls, e'.state.world.problem.2 = calls ++ e.state.world.problem.2 ∧
        Announced calls.reverse) ∧
    ∀ e e' : Penalty.Engine α (σ × List (Call α d.n)) d, e.setup.problem = p.recorded →
      e.Reaches e' → ∃ calls, e'.state.world.problem.2 = calls ++ e.state.world.problem.2 ∧
        Announced calls.reverse := by
  refine ⟨?_, ?_⟩
  · intro e e' same runs
    have tracked := p.recorded_tracked e.state.world.problem.2
    rw [← same] at tracked
    exact runs.tracked tracked ⟨[], rfl, .nil⟩
  · intro e e' same runs
    have tracked := p.recorded_tracked e.state.world.problem.2
    rw [← same] at tracked
    have fine : AllAnnounced e.state.world.problem.2 e.state.world.problem := ⟨[], rfl, .nil⟩
    exact runs.tracked tracked fine

end Runs

open Barrier
open scoped Linear.Exact

noncomputable def blindRay : Problem ℝ Unit Ray.line :=
  { Ray.problem 10 with equalities := fun _ _ => pure (.silent false) }

/-- Both methods on that ray, from an empty record. The interior point method evaluates its starting
point until the equalities fail. The augmented Lagrangian method asks for the inequalities at the
user's point before it evaluates there. -/
theorem ray_announces_points :
    let w : World ℝ (Unit × List (Call ℝ 1)) := ⟨((), []), []⟩
    let interior : Barrier.Engine ℝ (Unit × List (Call ℝ 1)) Ray.line :=
      ⟨⟨blindRay.recorded, Ray.settings 1, Ray.bounds⟩, .initial (Ray.settings 1) true w⟩
    let penalty : Penalty.Engine ℝ (Unit × List (Call ℝ 1)) Ray.line :=
      ⟨⟨blindRay.recorded, .default⟩, .initial .default (.ofBounds Ray.bounds) w⟩
    ∃ x y z, Announced [⟨.objective, x, true⟩, ⟨.equalities, x, false⟩] ∧
      (interior.run Observer.silent ()).2.1.state.world.problem.2.reverse =
        [⟨.objective, x, true⟩, ⟨.equalities, x, false⟩] ∧
      Announced [⟨.inequalities, y, true⟩, ⟨.objective, z, true⟩, ⟨.objective, z, true⟩,
        ⟨.equalities, z, false⟩] ∧
      (penalty.run Observer.silent ()).2.1.state.world.problem.2.reverse =
        [⟨.inequalities, y, true⟩, ⟨.objective, z, true⟩, ⟨.objective, z, true⟩,
          ⟨.equalities, z, false⟩] := by
  intro w interior penalty
  obtain ⟨calls, recorded, announced⟩ := (runs_announce_points blindRay).1 interior _ rfl
    (.run .refl Observer.silent ())
  obtain ⟨calls', recorded', announced'⟩ := (runs_announce_points blindRay).2 penalty _ rfl
    (.run .refl Observer.silent ())
  rw [← recorded.trans (List.append_nil calls)] at announced
  rw [← recorded'.trans (List.append_nil calls')] at announced'
  exact ⟨_, _, _, announced, rfl, announced', rfl⟩

end SmoothOpt
