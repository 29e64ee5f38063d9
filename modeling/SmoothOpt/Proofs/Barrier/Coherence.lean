import SmoothOpt.Proofs.Barrier.Course

/-!
The state at every pass belongs to one point.

The starting procedure and a completed iteration leave an evaluation, residuals and barrier
parameters that were all computed for the current point. Lowering the barrier parameter recomputes
only what depends on it, and that is enough. So `Coherent` holds along the whole course of a run,
in any arithmetic.
-/
namespace SmoothOpt.Barrier

open Scalar Linear

variable {α σ ω : Type} [Scalar α] {d : Dims} {c : Setup α σ d} {s s' : State α σ d}

namespace State

def lowered (s : State α σ d) (c : Setup α σ d) (w : World α σ) : State α σ d :=
  { s with
    world := w
    mu := c.schedule.next s.mu
    tau := c.schedule.tau (c.schedule.next s.mu)
    filter := s.filter.clear
    resid := s.resid.withBarrier s.curr c.bounds (c.schedule.next s.mu) }

/-- What every single decrease preserves, the barrier update preserves. -/
theorem decreaseBarrier_preserves {P : State α σ d → Prop}
    (decrease : ∀ s w, w.problem = s.world.problem → P s →
      c.schedule.subproblemSolved s.resid.barOverall s.mu = true →
      ¬ s.mu ≤ c.schedule.next s.mu → P (s.lowered c w)) (budget : Nat) :
    ∀ s : State α σ d, P s → P (s.decreaseBarrier c budget) := by
  induction budget with
  | zero =>
    intro s holds
    exact holds
  | succ budget ih =>
    intro s holds
    rw [decreaseBarrier]
    split
    · rename_i solved
      dsimp only
      split
      · exact holds
      · rename_i smaller
        let event : Event α := .barrierDecreased (c.schedule.next s.mu)
          (c.schedule.tau (c.schedule.next s.mu))
          (s.resid.withBarrier s.curr c.bounds (c.schedule.next s.mu)).barOverall
        obtain ⟨w, recorded⟩ := recordFrom_eq (s.lowered c s.world) c 3 event
        have memory : w.problem = s.world.problem := by
          have same := recordFrom_problem (s.lowered c s.world) c 3 event
          rw [recorded] at same
          exact same
        exact ih _ (recorded ▸ decrease s w memory holds solved smaller)
    · exact holds

/-- A barrier problem that is not solved yet keeps its parameter. -/
theorem decreaseBarrier_of_unsolved
    (unsolved : c.schedule.subproblemSolved s.resid.barOverall s.mu = false) (budget : Nat) :
    s.decreaseBarrier c budget = s := by
  cases budget with
  | zero => rfl
  | succ budget =>
    rw [decreaseBarrier, unsolved]
    rfl

theorem updateBarrier_preserves {P : State α σ d → Prop}
    (decrease : ∀ s w, w.problem = s.world.problem → P s →
      c.schedule.subproblemSolved s.resid.barOverall s.mu = true →
      ¬ s.mu ≤ c.schedule.next s.mu → P (s.lowered c w)) (holds : P s) :
    P (s.updateBarrier c) :=
  decreaseBarrier_preserves decrease _ s holds

end State

/-- Asking for the starting point, in terms of the answer. -/
theorem outcome_askStart (c : Setup α σ d) (s : State α σ d) :
    (askStart c).outcome s =
      let reply := c.problem.start.run s.world.problem
      (if !reply.1.ok then .error (.invalidProblem .startFailed)
        else if !allFinite (reply.1.onto (Vector.replicate _ 0)).toList then
          .error (.invalidProblem .startNotFinite)
        else .ok (reply.1.onto (Vector.replicate _ 0)),
       { s with world := { s.world with problem := reply.2 } }) := rfl

/-- Asking for the starting point changes the world only, and what it gives was answered over the
origin and is finite. -/
theorem askStart_outcome {r : Except (Failure α) (Vector α d.n)}
    (h : (askStart c).outcome s = (r, s')) : (∃ w, s' = { s with world := w }) ∧
      ∀ x0, r = .ok x0 → AnsweredOver (Vector.replicate _ 0) c.problem.start x0 ∧
        allFinite x0.toList = true := by
  rw [outcome_askStart, Prod.mk.injEq] at h
  obtain ⟨verdict, rfl⟩ := h
  refine ⟨⟨_, rfl⟩, ?_⟩
  rintro x0 rfl
  split at verdict
  · cases verdict
  · rename_i succeeded
    split at verdict
    · cases verdict
    · rename_i regular
      cases verdict
      exact ⟨⟨s.world.problem, by simpa using succeeded, rfl⟩, by simpa using regular⟩

section Start

variable [DenseSolver α]

def startEstimate (c : Setup α σ d) (e : Evaluation α d) (it : Iterate α d) :
    Vector α d.mEq × Vector α d.mIneq :=
  match c.settings.multiplierStart with
  | .lsq => (lsqStart e it c.bounds c.settings.multiplierInitMax).getD
      (Vector.replicate _ 0, Vector.replicate _ 0)
  | .constant => (Vector.replicate _ c.settings.multiplierInit,
      Vector.replicate _ c.settings.multiplierInit)

/-- Choosing starting multipliers changes the constraint multipliers and the log. -/
theorem State.startMultipliers_eq (s : State α σ d) (c : Setup α σ d) :
    ∃ w, s.startMultipliers c = { s with
      world := w
      curr := s.curr.withConstraintMultipliers (startEstimate c s.eval s.curr) } := by
  unfold State.startMultipliers startEstimate
  cases c.settings.multiplierStart with
  | lsq =>
    dsimp only
    split
    · exact ⟨_, rfl⟩
    · exact ⟨_, rfl⟩
  | constant => exact ⟨_, rfl⟩

/-- The starting iterate: the points given, their distances and unit bound multipliers. -/
def startIterate (c : Setup α σ d) (x : Vector α d.n) (e : Evaluation α d) (it : Iterate α d)
    (y : Vector α d.mEq × Vector α d.mIneq) : Iterate α d :=
  let s := c.bounds.s.pushInside c.settings.kappa1 c.settings.kappa2 e.ineq
  let placed := { it with x := { it.x with point := x }, s := { it.s with point := s } }
  ((placed.withSlacks c.bounds minSlack).withMultipliers c.bounds 1).withConstraintMultipliers y

/-- The state after a successful start, with everything computed for its point. -/
def State.started (s : State α σ d) (c : Setup α σ d) (w : World α σ) (it : Iterate α d)
    (e : Evaluation α d) : State α σ d :=
  let resid := Residual.compute it e c.bounds c.settings.mu0 c.settings.pSmax
  { s with
    world := w
    curr := it
    eval := e
    resid := resid
    filter := s.filter.clear
    mu := c.settings.mu0
    tau := c.schedule.tau c.settings.mu0
    lineSearch := .ofSettings c.settings (violation e it)
    termination := (Termination.ofInterior c.settings).recordInitial [resid.nlpOverall] }

/-- The starting multipliers at a point, for whatever multipliers were there before. -/
def startMultipliersAt (c : Setup α σ d) (x : Vector α d.n) (e : Evaluation α d) :
    Vector α d.mEq × Vector α d.mIneq :=
  startEstimate c e (startIterate c x e .zero (Vector.replicate _ 0, Vector.replicate _ 0))

theorem settleStart_eq (s : State α σ d) (c : Setup α σ d) :
    ∃ w, s.settleStart c = s.started c w
      (startIterate c s.curr.x.point s.eval s.curr (startMultipliersAt c s.curr.x.point s.eval))
      s.eval := by
  let curr := startIterate c s.curr.x.point s.eval s.curr (s.curr.yc, s.curr.yd)
  -- all that follows the choice of the multipliers
  let settle (t : State α σ d) : State α σ d :=
    State.recordFrom (t.started c t.world t.curr t.eval) c 3
      (.interiorStart t.eval.f (violation t.eval t.curr)
        (Residual.compute t.curr t.eval c.bounds c.settings.mu0 c.settings.pSmax).nlpOverall
        (infNorm t.curr.yc.toList))
  have unfolded : s.settleStart c = settle (State.startMultipliers { s with curr := curr } c) := rfl
  obtain ⟨w₁, chosen⟩ := State.startMultipliers_eq { s with curr := curr } c
  rw [chosen] at unfolded
  let it := startIterate c s.curr.x.point s.eval s.curr
    (startMultipliersAt c s.curr.x.point s.eval)
  obtain ⟨w, recorded⟩ := State.recordFrom_eq (s.started c w₁ it s.eval) c 3
    (.interiorStart s.eval.f (violation s.eval it)
      (Residual.compute it s.eval c.bounds c.settings.mu0 c.settings.pSmax).nlpOverall
      (infNorm it.yc.toList))
  exact ⟨w, unfolded.trans recorded⟩

/-- A successful start evaluates everything at the given point, pushed inside the bounds, and
settles there. -/
theorem startingProcedure_parts (h : (startingProcedure c).outcome s = (.ok (), s')) :
    ∃ x0 x e w₀ w₁ w, AnsweredOver (Vector.replicate _ 0) c.problem.start x0 ∧
      allFinite x0.toList = true ∧
      x = c.bounds.x.pushInside c.settings.kappa1 c.settings.kappa2 x0 ∧
      (Evaluation.all c.problem x).outcome (s.eval, w₀) = (.ok (), (e, w₁)) ∧
      s' = s.started c w (startIterate c x e s.curr (startMultipliersAt c x e)) e := by
  simp only [startingProcedure, Step.outcome_bind_ok, Step.outcome_modify_bind,
    Step.outcome_modify, Prod.mk.injEq, true_and] at h
  obtain ⟨x0, s₁, asked, _, s₂, evaluated, rfl⟩ := h
  obtain ⟨⟨w₁, rfl⟩, given⟩ := askStart_outcome asked
  obtain ⟨e, w₂, answered, rfl⟩ := evaluating_ok evaluated
  let x := c.bounds.x.pushInside c.settings.kappa1 c.settings.kappa2 x0
  obtain ⟨w, settled⟩ := settleStart_eq { s with
    world := { w₁ with problem := w₂ }
    curr := { s.curr with x := { s.curr.x with point := x } }
    eval := e } c
  obtain ⟨given, regular⟩ := given x0 rfl
  exact ⟨x0, x, e, _, _, w, given, regular, rfl, answered, settled⟩

theorem startingProcedure_ok (h : (startingProcedure c).outcome s = (.ok (), s')) :
    ∃ x0 e y w, AnsweredOver (Vector.replicate _ 0) c.problem.start x0 ∧
      e.AnswersAt c.problem (c.bounds.x.pushInside c.settings.kappa1 c.settings.kappa2 x0) ∧
      s' = s.started c w (startIterate c
        (c.bounds.x.pushInside c.settings.kappa1 c.settings.kappa2 x0) e s.curr y) e := by
  obtain ⟨x0, x, e, w₀, w₁, w, given, -, rfl, answered, left⟩ := startingProcedure_parts h
  exact ⟨x0, e, _, w, given, Evaluation.all_ok answered, left⟩

/-- The starting procedure empties the filter, or fails before it touches it. -/
theorem startingProcedure_filter (c : Setup α σ d) (f : Filter α) :
    Step.Ensures (fun s => s.filter = f) (startingProcedure c) (fun _ s => s.filter = f.clear)
      fun s => s.filter = f := by
  have asked : Step.Keeps (fun s : State α σ d => s.filter = f) (askStart c) :=
    .of_state fun _ => id
  unfold startingProcedure
  refine .bind asked fun x0 => .bind (Q := fun _ s => s.filter = f) (.modify fun _ => id) fun _ =>
    .bind (Q := fun _ s => s.filter = f) ?_ fun _ => .modify ?_
  · exact Step.Keeps.of_state fun _ => id
  · intro s same
    obtain ⟨w, settled⟩ := settleStart_eq s c
    rw [settled, ← same]
    rfl

/-- A run begins to count its iterations at zero. -/
theorem Engine.iter_of_start {e : Engine α σ d}
    (h : (startingProcedure e.setup).outcome e.opened = (.ok (), s)) : s.iter = 0 := by
  obtain ⟨x0, eval, y, w, -, -, rfl⟩ := startingProcedure_ok h
  obtain ⟨w', opened⟩ := e.opened_eq
  rw [opened]
  rfl

/-- A start takes its own error for the reference of the stopping tests. -/
theorem termination_of_start (h : (startingProcedure c).outcome s = (.ok (), s')) :
    s'.termination =
      (Termination.ofInterior c.settings).recordInitial [s'.resid.nlpOverall] := by
  obtain ⟨x0, eval, y, w, -, -, rfl⟩ := startingProcedure_ok h
  rfl

end Start

section Complete

variable [DenseSolver α] {dir : Direction α d} {acc : Accepted α} {alphaDual : α}

/-- Refreshing the multipliers after a step changes the constraint multipliers only. -/
theorem refreshMultipliers_eq (kind : MultiplierUpdate) (it : Iterate α d) (e : Evaluation α d)
    (b : Bounds α d) (dir : Direction α d) (alpha : α) :
    ∃ y, (it.refreshMultipliers kind e b dir alpha).1 = it.withConstraintMultipliers y := by
  have newton : it.takeConstraintStep dir alpha = it.withConstraintMultipliers
      ((it.takeConstraintStep dir alpha).yc, (it.takeConstraintStep dir alpha).yd) := rfl
  unfold Iterate.refreshMultipliers
  split
  · exact ⟨_, newton⟩
  · split
    · exact ⟨_, rfl⟩
    · exact ⟨_, newton⟩

/-- The state after a completed iteration, with its residuals computed for the new iterate. -/
def State.completed (s : State α σ d) (c : Setup α σ d) (w : World α σ) (it : Iterate α d)
    (alphaPrimal alphaDual : α) : State α σ d :=
  { s with
    world := w
    curr := it
    resid := .compute it s.eval c.bounds s.mu c.settings.pSmax
    alphaPrimal := alphaPrimal
    alphaDual := alphaDual
    iter := s.iter + 1 }

/-- Completing an iteration refreshes the constraint multipliers, clips those of the bounds and
recomputes the residuals. -/
theorem complete_refreshed (s : State α σ d) (c : Setup α σ d) (dir : Direction α d)
    (acc : Accepted α) (alphaDual : α) : ∃ w, s.complete c dir acc alphaDual =
      s.completed c w ((s.curr.refreshMultipliers c.settings.multiplierUpdate s.eval c.bounds dir
        acc.alpha).1.clip c.bounds s.mu c.settings.kappaSigma) acc.alpha alphaDual := by
  -- all that follows the refreshed multipliers
  let settle (refreshed : Iterate α d × Bool) : State α σ d :=
    let s := if refreshed.2 then s.record .estimateFailed else s
    let it := refreshed.1.clip c.bounds s.mu c.settings.kappaSigma
    let s := s.completed c s.world it acc.alpha alphaDual
    s.recordFrom c 2 (.interiorIteration s.iter s.eval.f s.resid.nlpFeas s.resid.nlpOptim s.mu
      s.alphaDual s.alphaPrimal acc.backtracks)
  have unfolded : s.complete c dir acc alphaDual = settle
      (s.curr.refreshMultipliers c.settings.multiplierUpdate s.eval c.bounds dir acc.alpha) := rfl
  generalize s.curr.refreshMultipliers c.settings.multiplierUpdate s.eval c.bounds dir acc.alpha =
    refreshed at unfolded ⊢
  obtain ⟨it, fellBack⟩ := refreshed
  have noted : ∃ w, (if fellBack then s.record .estimateFailed else s) = { s with world := w } := by
    cases fellBack with
    | true => exact ⟨_, rfl⟩
    | false => exact ⟨_, rfl⟩
  obtain ⟨w₁, noted⟩ := noted
  simp only [settle, noted] at unfolded
  rw [unfolded]
  exact State.recordFrom_eq (s.completed c w₁ (it.clip c.bounds s.mu c.settings.kappaSigma)
    acc.alpha alphaDual) c 2 _

/-- Only the constraint multipliers depend on how they are refreshed. -/
theorem complete_eq (s : State α σ d) (c : Setup α σ d) (dir : Direction α d) (acc : Accepted α)
    (alphaDual : α) : ∃ w y, s.complete c dir acc alphaDual =
      s.completed c w ((s.curr.withConstraintMultipliers y).clip c.bounds s.mu
        c.settings.kappaSigma) acc.alpha alphaDual := by
  obtain ⟨w, completed⟩ := complete_refreshed s c dir acc alphaDual
  obtain ⟨y, only⟩ := refreshMultipliers_eq c.settings.multiplierUpdate s.curr s.eval c.bounds dir
    acc.alpha
  rw [only] at completed
  exact ⟨w, y, completed⟩

/-- An iteration counts itself and leaves the stopping tests alone. -/
theorem advance_counted (step : (advance c).outcome s = (.ok (), s')) :
    s'.iter = s.iter + 1 ∧ s'.termination = s.termination := by
  obtain ⟨dir, acc, e, e', moved, -, -, -, ⟨w, k, m, t, rfl⟩, rfl⟩ := advance_ok step
  obtain ⟨w', y, completed⟩ := complete_eq _ c dir acc _
  rw [completed]
  exact ⟨rfl, rfl⟩

/-- The iterate of a completed iteration: the point moves by the chosen step, the multipliers of the
bounds by the longest one, those of the constraints are refreshed, and the former are clipped. -/
theorem curr_of_advance {e : Evaluation α d} (chosen : Chosen c s dir acc e)
    (step : (advance c).outcome s = (.ok (), s')) :
    let moved := (s.curr.trial dir c.bounds acc.alpha).takeBoundStep dir c.bounds
      (s.curr.maxDualStep dir c.bounds s.tau)
    s'.curr = (moved.refreshMultipliers c.settings.multiplierUpdate s'.eval c.bounds dir
      acc.alpha).1.clip c.bounds s.mu c.settings.kappaSigma := by
  obtain ⟨dir', acc', e₁, e', moved, chosen', -, -, ⟨w, k, m, t, rfl⟩, rfl⟩ := advance_ok step
  obtain ⟨rfl, rfl, rfl⟩ := chosen.unique chosen'
  obtain ⟨w', completed⟩ := complete_refreshed _ c dir acc _
  rw [completed]
  rfl

/-- A failed iteration is not counted. -/
theorem iter_of_failed {f : Failure α} (step : (advance c).outcome s = (.error f, s')) :
    s'.iter = s.iter := by
  obtain ⟨⟨w, k, m, t, rfl⟩, -⟩ | ⟨dir, acc, e, e', q, -, -, -, -, ⟨w, k, m, t, rfl⟩⟩ :=
    advance_error step
  · rfl
  · rfl

/-- An iteration leaves the barrier parameter alone, whether it is completed or fails. -/
theorem advance_mu {x : Except (Failure α) Unit} (step : (advance c).outcome s = (x, s')) :
    s'.mu = s.mu := by
  cases x with
  | ok _ =>
    obtain ⟨dir, acc, e, e', moved, -, -, -, ⟨w, k, m, t, rfl⟩, rfl⟩ := advance_ok step
    obtain ⟨w', y, completed⟩ := complete_eq _ c dir acc _
    rw [completed]
    rfl
  | error f =>
    obtain ⟨⟨w, k, m, t, rfl⟩, -⟩ | ⟨dir, acc, e, e', q, -, -, -, -, ⟨w, k, m, t, rfl⟩⟩ :=
      advance_error step
    · rfl
    · rfl

end Complete

/-- A report shows the errors and the count that were checked, and keeps the result of the check. -/
theorem State.reported_checked (s : State α σ d) (c : Setup α σ d) :
    (s.reported c).iter = s.iter ∧ (s.reported c).resid.nlpOverall = s.resid.nlpOverall ∧
      (s.reported c).termination = s.checked.2.termination :=
  State.updateBarrier_preserves
    (P := fun t => t.iter = s.iter ∧ t.resid.nlpOverall = s.resid.nlpOverall ∧
      t.termination = s.checked.2.termination)
    (fun _ _ _ same _ _ => same) ⟨rfl, rfl, rfl⟩

/-- Evaluation, residuals and barrier parameters all belong to the current point, and the stopping
parameters are those of the settings. -/
structure State.Coherent (s : State α σ d) (c : Setup α σ d) : Prop where
  eval : s.eval.AnswersAt c.problem s.curr.x.point
  resid : s.resid = .compute s.curr s.eval c.bounds s.mu c.settings.pSmax
  tau : s.tau = c.schedule.tau s.mu
  termination : ∃ errors count, s.termination =
    { Termination.ofInterior c.settings with initialErrors := errors, acceptableCount := count }

theorem State.Coherent.of_kept (h : s.Coherent c) (kept : s.Kept s') : s'.Coherent c := by
  obtain ⟨w, k, m, t, rfl⟩ := kept
  exact ⟨h.eval, h.resid, h.tau, h.termination⟩

/-- A check counts, and changes nothing else. -/
theorem State.Coherent.checked (h : s.Coherent c) : s.checked.2.Coherent c := by
  refine ⟨h.eval, h.resid, h.tau, ?_⟩
  obtain ⟨errors, count, same⟩ := h.termination
  obtain ⟨count', changed⟩ := s.termination.check_state [s.resid.nlpOverall] s.iter
  rw [same] at changed
  refine ⟨errors, count', ?_⟩
  simp only [State.checked]
  rw [same]
  exact changed

/-- The verdict is success when and only when the overall error is at most the tolerance. -/
theorem State.Coherent.success_iff (h : s.Coherent c) :
    s.checked.1 = some .success ↔ s.resid.nlpOverall ≤ c.settings.tolerance := by
  obtain ⟨errors, count, same⟩ := h.termination
  rw [State.checked, Termination.check_success_iff, List.forall_mem_singleton, same]
  rfl

/-- With an error above both tolerances and budget left, a check goes on. -/
theorem State.Coherent.undecided (h : s.Coherent c)
    (above : ¬s.resid.nlpOverall ≤ c.settings.tolerance)
    (unacceptable : ¬s.resid.nlpOverall ≤ c.settings.acceptableTolerance)
    (absolute : ¬0 < c.settings.relTolerance) (early : s.iter < c.settings.maxIter) :
    s.checked.1 = none := by
  obtain ⟨errors, count, same⟩ := h.termination
  rw [State.checked, same]
  refine Termination.check_none ?_ early ?_ ?_
  · simp [Termination.allWithin, Termination.ofInterior, above]
  · simp [Termination.relativelySmall, Termination.ofInterior, absolute]
  · simp [Termination.allWithin, Termination.ofInterior, unacceptable]

/-- The barrier update keeps the state coherent: what it does not recompute does not depend on the
barrier parameter. -/
theorem State.Coherent.reported (h : s.Coherent c) : (s.reported c).Coherent c := by
  apply State.updateBarrier_preserves (P := fun s => s.Coherent c)
  · intro s w _ h _ _
    refine ⟨h.eval, ?_, rfl, h.termination⟩
    simp only [State.lowered]
    rw [h.resid]
    rfl
  · exact h.checked

variable [DenseSolver α]

/-- A successful start leaves a coherent state. -/
theorem State.Coherent.of_start (h : (startingProcedure c).outcome s = (.ok (), s')) :
    s'.Coherent c := by
  obtain ⟨x0, e, y, w, -, answers, rfl⟩ := startingProcedure_ok h
  exact ⟨answers, rfl, rfl, _, _, rfl⟩

/-- A completed iteration leaves a coherent state. -/
theorem State.Coherent.of_advance (h : s.Coherent c)
    (step : (advance c).outcome s = (.ok (), s')) : s'.Coherent c := by
  obtain ⟨dir, acc, e, e', moved, -, -, answers, kept, rfl⟩ := advance_ok step
  obtain ⟨w, k, m, t, rfl⟩ := kept
  obtain ⟨w', y, completed⟩ := complete_eq _ c dir acc _
  rw [completed]
  exact ⟨answers, rfl, h.tau, h.termination⟩

/-- Every pass keeps the state coherent. -/
theorem coherent_preserved (c : Setup α σ d) :
    Preserved c fun (_ : List (State α σ d)) s => s.Coherent c where
  check _ _ h := h.checked
  report _ _ h := h.reported
  step _ _ _ h step := h.of_advance step

namespace Engine

variable {e : Engine α σ d} {obs : Observer α d ω} {o : ω} {first last : State α σ d}
  {reports : List (State α σ d)}

theorem Follows.coherent_beginning {ending : Except (Failure α) Status}
    (follows : e.Follows obs o first reports ending last) :
    (first.headed e.setup).Coherent e.setup := by
  have coherent := State.Coherent.of_start follows.start
  obtain ⟨w, headed⟩ := first.headed_eq e.setup
  rw [headed]
  exact ⟨coherent.eval, coherent.resid, coherent.tau, coherent.termination⟩

/-- Every report is coherent. -/
theorem Follows.coherent_report {ending : Except (Failure α) Status}
    (follows : e.Follows obs o first reports ending last) (member : s ∈ reports) :
    s.Coherent e.setup := by
  obtain ⟨o', course⟩ := follows.course
  obtain ⟨init, rest, cut⟩ := List.append_of_mem member
  exact course.reports_hold (coherent_preserved e.setup) [] follows.coherent_beginning init s rest
    cut

/-- A run that no iteration ended by a failure leaves a coherent state. -/
theorem Follows.coherent_exit {status : Status}
    (follows : e.Follows obs o first reports (.ok status) last) : last.Coherent e.setup := by
  obtain ⟨o', course⟩ := follows.course
  cases course.exit_holds (coherent_preserved e.setup) [] follows.coherent_beginning with
  | spent coherent => exact coherent
  | decided coherent verdict => exact coherent.checked
  | stopped coherent => exact coherent

/-- A run whose start fails leaves the filter as it found it. -/
theorem filter_of_failed_start (obs : Observer α d ω) (o : ω) {cause : Failure α}
    (start : (startingProcedure e.setup).outcome e.opened = (.error cause, first)) :
    (e.run obs o).2.1.state.filter = e.state.filter := by
  obtain ⟨-, ⟨w, state⟩, -⟩ := run_of_failed_start obs o start
  have untouched : first.filter = e.state.filter :=
    (startingProcedure_filter e.setup _).error e.opened_filter start
  rw [state]
  exact untouched

end Engine

end SmoothOpt.Barrier
