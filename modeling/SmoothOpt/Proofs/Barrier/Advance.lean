import SmoothOpt.Barrier.Engine
import SmoothOpt.Proofs.Problem.Answer

/-!
What one iteration can do to the state of the engine.

The main statements take `advance` apart. A completed iteration moves along a direction to a point
whose functions and derivatives have been evaluated, and completes it. A failed one either leaves
everything but the world, the curvature, the shift memory and the trial's evaluation as it was, or
has moved already and failed at a derivative of the new point. Every invariant of a run is derived
from these two facts.
-/
namespace SmoothOpt

open Scalar Linear

/-- A step length halved a number of times. -/
def halved {α : Type} [Scalar α] (alpha : α) : Nat → α
  | 0 => alpha
  | k + 1 => halved (alpha * 0.5) k

namespace LineSearch

variable {α τ : Type} [Scalar α] {l : LineSearch α} {filter : Filter α} {current : Measures α}
  {slope : α} {trial : α → Step (Failure α) τ (Measures α)} {onReject : Rejection α → τ → τ}

/-- An accepted step length is the first one halved once for each backtrack, and the trial at this
very length is the last thing that was done. -/
theorem backtrackFrom_ok (left : Nat) :
    ∀ (backtracks : Nat) (alpha : α) (t t' : τ) (acc : Accepted α),
      (l.backtrackFrom filter current slope trial onReject left backtracks alpha).outcome t
        = (.ok acc, t') →
      ∃ k, acc.backtracks = backtracks + k ∧ acc.alpha = halved alpha k ∧
        ∃ before measured, (trial acc.alpha).outcome before = (.ok measured, t') ∧
          l.accept filter current measured acc.alpha slope = some acc.kind := by
  induction left with
  | zero =>
    intro backtracks alpha t t' acc h
    simp [backtrackFrom] at h
  | succ left ih =>
    intro backtracks alpha t t' acc h
    rw [backtrackFrom, Step.outcome_bind_ok] at h
    obtain ⟨measured, t₁, tried, h⟩ := h
    cases verdict : l.accept filter current measured alpha slope with
    | some kind =>
      simp only [verdict, Step.outcome_pure, Prod.mk.injEq, Except.ok.injEq] at h
      obtain ⟨rfl, rfl⟩ := h
      exact ⟨0, rfl, rfl, t, measured, tried, verdict⟩
    | none =>
      simp only [verdict, Step.outcome_modify_bind] at h
      split at h
      · simp at h
      · obtain ⟨k, counted, length, last⟩ := ih _ _ _ _ _ h
        exact ⟨k + 1, by omega, length, last⟩

/-- A search fails by itself or because a trial does. -/
theorem backtrackFrom_error (left : Nat) :
    ∀ (backtracks : Nat) (alpha : α) (t t' : τ) (f : Failure α),
      (l.backtrackFrom filter current slope trial onReject left backtracks alpha).outcome t
        = (.error f, t') →
      (∃ a, f = .lineSearch a) ∨ ∃ a before, (trial a).outcome before = (.error f, t') := by
  induction left with
  | zero =>
    intro backtracks alpha t t' f h
    simp only [backtrackFrom, Step.outcome_throw, Prod.mk.injEq, Except.error.injEq] at h
    exact .inl ⟨alpha, h.1.symm⟩
  | succ left ih =>
    intro backtracks alpha t t' f h
    rw [backtrackFrom, Step.outcome_bind_error] at h
    obtain failed | ⟨measured, t₁, -, h⟩ := h
    · exact .inr ⟨alpha, t, failed⟩
    · cases verdict : l.accept filter current measured alpha slope with
      | some kind => simp [verdict] at h
      | none =>
        simp only [verdict, Step.outcome_modify_bind] at h
        split at h
        · simp only [Step.outcome_throw, Prod.mk.injEq, Except.error.injEq] at h
          exact .inl ⟨_, h.1.symm⟩
        · exact ih _ _ _ _ _ h

end LineSearch

theorem Curvature.outcome_refresh_exact {α σ : Type} {d : Dims} [Scalar α] (p : Problem α σ d)
    (x : Vector α d.n) (e : Evaluation α d) (yc : Vector α d.mEq) (yd : Vector α d.mIneq)
    (hess : Dense α d.n d.n) (w : σ) :
    (Curvature.refresh p x e yc yd).outcome (.exact hess, w) =
      let reply := (p.hessian x false 1 yc yd).run w
      (if reply.1.ok && allFinite (reply.1.onto Dense.zeros).entries then .ok ()
        else .error .hessian, (.exact (reply.1.onto Dense.zeros), reply.2)) := rfl

namespace Barrier

variable {α σ ω : Type} {d : Dims}

namespace State

/-- Only the world, the curvature, the memory of shifts and the trial's evaluation may differ. -/
def Kept (s s' : State α σ d) : Prop :=
  ∃ w k m t, s' = { s with world := w, curvature := k, shifts := m, trialEval := t }

theorem Kept.trans {s₁ s₂ s₃ : State α σ d} (first : Kept s₁ s₂) (second : Kept s₂ s₃) :
    Kept s₁ s₃ := by
  obtain ⟨_, _, _, _, rfl⟩ := first
  obtain ⟨_, _, _, _, rfl⟩ := second
  exact ⟨_, _, _, _, rfl⟩

/-- Writing to the log changes the world only. -/
theorem recordFrom_eq [Scalar α] (s : State α σ d) (c : Setup α σ d) (verbosity : Nat)
    (e : Event α) : ∃ w, s.recordFrom c verbosity e = { s with world := w } := by
  unfold recordFrom
  split
  · exact ⟨_, rfl⟩
  · exact ⟨_, rfl⟩

/-- Writing to the log is not seen by the problem. -/
theorem recordFrom_problem [Scalar α] (s : State α σ d) (c : Setup α σ d) (verbosity : Nat)
    (e : Event α) : (s.recordFrom c verbosity e).world.problem = s.world.problem := by
  unfold recordFrom
  split
  · rfl
  · rfl

theorem foldl_record_eq {β : Type} (event : β → Event α) (l : List β) (s : State α σ d) :
    ∃ w, l.foldl (fun s r => s.record (event r)) s = { s with world := w } := by
  induction l generalizing s with
  | nil => exact ⟨_, rfl⟩
  | cons r l ih =>
    obtain ⟨w, same⟩ := ih (s.record (event r))
    exact ⟨w, same⟩

end State

variable {c : Setup α σ d} {s s' : State α σ d}

theorem evaluating_ok {step : Step Quantity (Evaluation α d × σ) Unit}
    (h : (evaluating step).outcome s = (.ok (), s')) :
    ∃ e w, step.outcome (s.eval, s.world.problem) = (.ok (), (e, w)) ∧
      s' = { s with eval := e, world := { s.world with problem := w } } := by
  obtain ⟨⟨e, w⟩, ran, rfl⟩ := Step.outcome_within_ok.mp h
  exact ⟨e, w, ran, rfl⟩

theorem evaluating_error {step : Step Quantity (Evaluation α d × σ) Unit} {f : Failure α}
    (h : (evaluating step).outcome s = (.error f, s')) :
    ∃ q e w, step.outcome (s.eval, s.world.problem) = (.error q, (e, w)) ∧ f = .evaluation q ∧
      s' = { s with eval := e, world := { s.world with problem := w } } := by
  obtain ⟨q, ⟨e, w⟩, ran, named, rfl⟩ := Step.outcome_within_error.mp h
  exact ⟨q, e, w, ran, named, rfl⟩

variable [Scalar α]

/-- Refreshing the Hessian changes the Hessian and fails at nothing else. -/
theorem refreshCurvature_outcome {r : Except (Failure α) Unit}
    (h : (refreshCurvature c).outcome s = (r, s')) :
    (∃ w k, s' = { s with world := w, curvature := k }) ∧
      ∀ f, r = .error f → f = .evaluation .hessian := by
  rw [refreshCurvature, Step.outcome_get_bind] at h
  rcases r with f | _
  · obtain ⟨q, ⟨k, w⟩, ran, rfl, rfl⟩ := Step.outcome_within_error.mp h
    refine ⟨⟨_, _, rfl⟩, ?_⟩
    intro f same
    cases same
    cases kind : s.curvature with
    | quasiNewton _ _ => simp [Curvature.refresh, kind] at ran
    | exact hess =>
      rw [kind, Curvature.outcome_refresh_exact, Prod.mk.injEq] at ran
      obtain ⟨verdict, -⟩ := ran
      split at verdict
      · cases verdict
      · cases verdict
        rfl
  · obtain ⟨⟨k, w⟩, -, rfl⟩ := Step.outcome_within_ok.mp h
    exact ⟨⟨_, _, rfl⟩, by simp⟩

/-- An exact Hessian is replaced by what the problem answers. -/
theorem refreshCurvature_of_answer (exact : s.curvature.isExact = true) {h : Dense α d.n d.n}
    {w : σ}
    (answered : (c.problem.hessian s.curr.x.point false 1 s.curr.yc s.curr.yd).run
      s.world.problem = (.good h, w)) (finite : allFinite h.entries = true) :
    (refreshCurvature c).outcome s =
      (.ok (), { s with curvature := .exact h, world := { s.world with problem := w } }) := by
  obtain ⟨old, same⟩ : ∃ old, s.curvature = .exact old := by
    cases kind : s.curvature with
    | exact old => exact ⟨old, rfl⟩
    | quasiNewton q last =>
      rw [kind] at exact
      cases exact
  have whole : (Reply.good h).onto Dense.zeros = h := rfl
  rw [refreshCurvature, Step.outcome_get_bind, Step.outcome_within_ok]
  refine ⟨(.exact h, w), ?_, rfl⟩
  rw [same, Curvature.outcome_refresh_exact]
  simp only [answered, whole, finite]
  rfl

/-- Violation and barrier objective at a trial point with the evaluation there. -/
def trialMeasures (c : Setup α σ d) (s : State α σ d) (dir : Direction α d) (alpha : α)
    (e : Evaluation α d) : Measures α :=
  ⟨violation e (s.curr.trial dir c.bounds alpha),
   barrierObjective e (s.curr.trial dir c.bounds alpha) c.bounds s.mu⟩

/-- A measured trial leaves the values at its point. -/
theorem measureTrial_ok {dir : Direction α d} {alpha : α} {t t' : Evaluation α d × World α σ}
    {m : Measures α} (h : (measureTrial c s dir alpha).outcome t = (.ok m, t')) :
    t'.1.ValuesAt c.problem (s.curr.trial dir c.bounds alpha).x.point ∧
      m = trialMeasures c s dir alpha t'.1 := by
  simp only [measureTrial, Step.outcome_bind_ok, Step.outcome_within_ok, Step.outcome_get_bind,
    Step.outcome_pure, Prod.mk.injEq, Except.ok.injEq] at h
  obtain ⟨_, t₁, ⟨u, evaluated, rfl⟩, rfl, rfl⟩ := h
  exact ⟨Evaluation.funcs_ok evaluated, rfl⟩

theorem measureTrial_of_values {dir : Direction α d} {alpha : α} {e e' : Evaluation α d}
    {w : World α σ} {p : σ}
    (evaluated : (Evaluation.funcs c.problem (s.curr.trial dir c.bounds alpha).x.point).outcome
      (e, w.problem) = (.ok (), (e', p))) :
    (measureTrial c s dir alpha).outcome (e, w) =
      (.ok (trialMeasures c s dir alpha e'), (e', { w with problem := p })) := by
  rw [measureTrial, Step.outcome_bind_ok]
  exact ⟨(), _, Step.outcome_within_ok.mpr ⟨_, evaluated, rfl⟩, rfl⟩

theorem measureTrial_error {dir : Direction α d} {alpha : α} {t t' : Evaluation α d × World α σ}
    {f : Failure α} (h : (measureTrial c s dir alpha).outcome t = (.error f, t')) :
    ∃ q, f = .evaluation q ∧ q.isValue = true := by
  simp only [measureTrial, Step.outcome_bind_error, Step.outcome_within_error,
    Step.outcome_get_bind, Step.outcome_pure, Prod.mk.injEq, reduceCtorEq, false_and, and_false,
    exists_false, or_false] at h
  obtain ⟨q, u, evaluated, rfl, rfl⟩ := h
  exact ⟨q, rfl, Evaluation.funcs_error evaluated⟩

/-- A step along `dir` that the line search accepts from `s`: its length is the largest admissible
one, halved; it is tiny or passes the test; and `e` holds the values at its point. -/
structure AcceptedFrom (c : Setup α σ d) (s : State α σ d) (dir : Direction α d) (alphaMax : α)
    (acc : Accepted α) (e : Evaluation α d) : Prop where
  length : acc.alpha = halved alphaMax acc.backtracks
  test : acc.kind = .tiny ∨
    s.lineSearch.accept s.filter (s.measures c) (trialMeasures c s dir acc.alpha e) acc.alpha
      (barrierSlope s.eval s.curr dir c.bounds s.mu) = some acc.kind
  values : e.ValuesAt c.problem (s.curr.trial dir c.bounds acc.alpha).x.point

theorem searchStep_ok {dir : Direction α d} {alphaMax : α} {acc : Accepted α}
    {t t' : Evaluation α d × World α σ}
    (h : (searchStep c s dir alphaMax).outcome t = (.ok acc, t')) :
    AcceptedFrom c s dir alphaMax acc t'.1 := by
  unfold searchStep at h
  split at h
  · simp only [Step.outcome_bind_ok, Step.outcome_pure, Prod.mk.injEq, Except.ok.injEq] at h
    obtain ⟨m, t₁, tried, rfl, rfl⟩ := h
    exact ⟨rfl, .inl rfl, (measureTrial_ok tried).1⟩
  · obtain ⟨k, counted, length, before, m, tried, passed⟩ :=
      LineSearch.backtrackFrom_ok _ _ _ _ _ _ h
    obtain ⟨values, rfl⟩ := measureTrial_ok tried
    rw [Nat.zero_add] at counted
    exact ⟨counted ▸ length, .inr passed, values⟩

/-- A step that is not taken as tiny is not too small to be measured. -/
theorem searchStep_tested {dir : Direction α d} {alphaMax : α} {acc : Accepted α}
    {t t' : Evaluation α d × World α σ}
    (h : (searchStep c s dir alphaMax).outcome t = (.ok acc, t')) (tested : acc.kind ≠ .tiny) :
    ¬dir.relativeSize s.curr < tinyStep := by
  intro tiny
  rw [searchStep, if_pos tiny] at h
  simp only [Step.outcome_bind_ok, Step.outcome_pure, Prod.mk.injEq, Except.ok.injEq] at h
  obtain ⟨m, t₁, -, rfl, -⟩ := h
  exact tested rfl

theorem searchStep_error {dir : Direction α d} {alphaMax : α} {f : Failure α}
    {t t' : Evaluation α d × World α σ}
    (h : (searchStep c s dir alphaMax).outcome t = (.error f, t')) :
    (∃ a, f = .lineSearch a) ∨ ∃ q, f = .evaluation q ∧ q.isValue = true := by
  unfold searchStep at h
  split at h
  · simp only [Step.outcome_bind_error, Step.outcome_pure, Prod.mk.injEq, reduceCtorEq, false_and,
      and_false, exists_false, or_false] at h
    exact .inr (measureTrial_error h)
  · obtain exhausted | ⟨a, before, failed⟩ := LineSearch.backtrackFrom_error _ _ _ _ _ _ h
    · exact .inl exhausted
    · exact .inr (measureTrial_error failed)

/-- A line search that succeeds has found a step. -/
theorem lineSearch_searched {dir : Direction α d} {alphaMax : α} {acc : Accepted α}
    {e : Evaluation α d} (h : (lineSearch c dir alphaMax).outcome s = (.ok (acc, e), s')) :
    ∃ w, (searchStep c s dir alphaMax).outcome (s.trialEval, s.world) = (.ok acc, (e, w)) ∧
      s' = { s with world := w, trialEval := e } := by
  rcases searched : (searchStep c s dir alphaMax).outcome (s.trialEval, s.world) with ⟨r, e', w⟩
  simp only [lineSearch, Step.outcome_ofOutcome, searched, Prod.mk.injEq] at h
  obtain ⟨verdict, rfl⟩ := h
  rcases r with f | found
  · simp [Except.map] at verdict
  · simp only [Except.map, Except.ok.injEq, Prod.mk.injEq] at verdict
    obtain ⟨rfl, rfl⟩ := verdict
    exact ⟨w, rfl, rfl⟩

theorem lineSearch_ok {dir : Direction α d} {alphaMax : α} {acc : Accepted α} {e : Evaluation α d}
    (h : (lineSearch c dir alphaMax).outcome s = (.ok (acc, e), s')) :
    AcceptedFrom c s dir alphaMax acc e ∧ ∃ w, s' = { s with world := w, trialEval := e } := by
  obtain ⟨w, searched, left⟩ := lineSearch_searched h
  exact ⟨searchStep_ok searched, w, left⟩

/-- A first trial that passes the test is accepted, tested or not. -/
theorem lineSearch_of_first {dir : Direction α d} {alphaMax : α} {m : Measures α} {kind : StepKind}
    {e : Evaluation α d} {w : World α σ}
    (tried : (measureTrial c s dir alphaMax).outcome (s.trialEval, s.world) = (.ok m, (e, w)))
    (passed : s.lineSearch.accept s.filter (s.measures c) m alphaMax
      (barrierSlope s.eval s.curr dir c.bounds s.mu) = some kind) :
    (lineSearch c dir alphaMax).outcome s =
      (.ok (⟨alphaMax, if dir.relativeSize s.curr < tinyStep then .tiny else kind, 0⟩, e),
        { s with world := w, trialEval := e }) := by
  have searched : (searchStep c s dir alphaMax).outcome (s.trialEval, s.world) =
      (.ok ⟨alphaMax, if dir.relativeSize s.curr < tinyStep then .tiny else kind, 0⟩, (e, w)) := by
    unfold searchStep
    split
    · rw [Step.outcome_bind, tried]
      rfl
    · rw [LineSearch.backtrack, LineSearch.backtrackFrom, Step.outcome_bind, tried]
      simp only [passed]
      rfl
  rw [lineSearch, Step.outcome_ofOutcome, searched]
  rfl

/-- A first trial that cannot be evaluated ends the search, tested or not. -/
theorem lineSearch_of_failed_first {dir : Direction α d} {alphaMax : α} {f : Failure α}
    {e : Evaluation α d} {w : World α σ}
    (tried : (measureTrial c s dir alphaMax).outcome (s.trialEval, s.world) = (.error f, (e, w))) :
    (lineSearch c dir alphaMax).outcome s = (.error f, { s with world := w, trialEval := e }) := by
  have searched : (searchStep c s dir alphaMax).outcome (s.trialEval, s.world) =
      (.error f, (e, w)) := by
    unfold searchStep
    split
    · rw [Step.outcome_bind, tried]
    · rw [LineSearch.backtrack, LineSearch.backtrackFrom, Step.outcome_bind, tried]
  rw [lineSearch, Step.outcome_ofOutcome, searched]
  rfl

theorem lineSearch_error {dir : Direction α d} {alphaMax : α} {f : Failure α}
    (h : (lineSearch c dir alphaMax).outcome s = (.error f, s')) :
    ((∃ a, f = .lineSearch a) ∨ ∃ q, f = .evaluation q ∧ q.isValue = true) ∧
      ∃ w t, s' = { s with world := w, trialEval := t } := by
  rcases searched : (searchStep c s dir alphaMax).outcome (s.trialEval, s.world) with ⟨r, t, w⟩
  simp only [lineSearch, Step.outcome_ofOutcome, searched, Prod.mk.injEq] at h
  obtain ⟨verdict, rfl⟩ := h
  rcases r with cause | found
  · simp only [Except.map, Except.error.injEq] at verdict
    subst verdict
    exact ⟨searchStep_error searched, w, t, rfl⟩
  · simp [Except.map] at verdict

namespace State

@[simp] theorem moveTo_eval (dir : Direction α d) (acc : Accepted α) (e : Evaluation α d)
    (alphaDual : α) : (s.moveTo c dir acc e alphaDual).eval = e := rfl

/-- Both largest step lengths are those of the state before the direction was computed. -/
theorem Kept.maxSteps {dir : Direction α d} (kept : s.Kept s') :
    s'.curr.maxPrimalStep dir c.bounds s'.tau = s.curr.maxPrimalStep dir c.bounds s.tau ∧
      s'.curr.maxDualStep dir c.bounds s'.tau = s.curr.maxDualStep dir c.bounds s.tau := by
  obtain ⟨w, k, m, t, rfl⟩ := kept
  exact ⟨rfl, rfl⟩

theorem Kept.moveTo_point (kept : s.Kept s') (dir : Direction α d) (acc : Accepted α)
    (e : Evaluation α d) (alphaDual : α) : (s'.moveTo c dir acc e alphaDual).curr.x.point =
      (s.curr.trial dir c.bounds acc.alpha).x.point := by
  obtain ⟨w, k, m, t, rfl⟩ := kept
  rfl

/-- Moving does not look at what a kept state may differ in, and a later evaluation replaces the
one it came with. -/
theorem Kept.moveTo (kept : s.Kept s') (dir : Direction α d) (acc : Accepted α)
    (e e' : Evaluation α d) (alphaDual : α) (w : World α σ) :
    (s.moveTo c dir acc e' alphaDual).Kept
      { s'.moveTo c dir acc e alphaDual with eval := e', world := w } := by
  obtain ⟨w₁, k, m, t, rfl⟩ := kept
  exact ⟨w, k, m, _, rfl⟩

end State

theorem AcceptedFrom.of_kept {dir : Direction α d} {alphaMax : α} {acc : Accepted α}
    {e : Evaluation α d} (kept : s.Kept s') (h : AcceptedFrom c s' dir alphaMax acc e) :
    AcceptedFrom c s dir alphaMax acc e := by
  obtain ⟨w, k, m, t, rfl⟩ := kept
  exact ⟨h.length, h.test, h.values⟩

variable [DenseSolver α]

theorem newtonStep_outcome {r : Except (Failure α) (Newton.Solution α d)}
    (h : (newtonStep c).outcome s = (r, s')) :
    (∃ w m, s' = { s with world := w, shifts := m }) ∧
      (∀ sol, r = .ok sol →
        (Newton.solve (.ofSettings c.settings) s.shifts (s.newtonData c)).result = .ok sol) ∧
      ∀ f, r = .error f → ∃ fault, f = .newton fault := by
  simp only [newtonStep, Step.outcome_ofOutcome, Prod.mk.injEq] at h
  obtain ⟨rfl, rfl⟩ := h
  refine ⟨?_, ?_, ?_⟩
  · obtain ⟨w, same⟩ := State.foldl_record_eq (fun r => Event.inertiaRejected r.inertia r.deltaW)
      (Newton.solve (.ofSettings c.settings) s.shifts (s.newtonData c)).rejected s
    rw [same]
    exact ⟨_, _, rfl⟩
  · intro sol solved
    exact Step.mapError_ok.mp solved
  · intro f failed
    obtain ⟨fault, -, named⟩ := Step.mapError_error.mp failed
    exact ⟨fault, named⟩

/-- A direction comes from the Newton system at the current point, with the curvature just
refreshed. Nothing is moved. -/
theorem searchDirection_ok {dir : Direction α d}
    (h : (searchDirection c).outcome s = (.ok dir, s')) :
    s.Kept s' ∧ ∃ sol,
      (Newton.solve (.ofSettings c.settings) s.shifts (s'.newtonData c)).result = .ok sol ∧
        dir = .ofNewton sol s.curr c.bounds s.mu := by
  simp only [searchDirection, Step.outcome_bind_ok] at h
  obtain ⟨_, s₁, refreshed, sol, s₂, solved, rest⟩ := h
  obtain ⟨⟨w₁, k, rfl⟩, -⟩ := refreshCurvature_outcome refreshed
  obtain ⟨⟨w₂, m, rfl⟩, result, -⟩ := newtonStep_outcome solved
  -- the record of a shift touches neither the point nor the data of the system
  split at rest
  · simp only [Step.outcome_modify_bind, Step.outcome_get_bind, Step.outcome_pure, Prod.mk.injEq,
      Except.ok.injEq] at rest
    obtain ⟨rfl, rfl⟩ := rest
    obtain ⟨w₃, recorded⟩ := State.recordFrom_eq { s with world := w₂, curvature := k, shifts := m }
      c 3 (.inertiaCorrected sol.deltaW sol.deltaC)
    rw [recorded]
    exact ⟨⟨_, _, _, _, rfl⟩, sol, result sol rfl, rfl⟩
  · simp only [Step.outcome_get_bind, Step.outcome_pure, Prod.mk.injEq, Except.ok.injEq] at rest
    obtain ⟨rfl, rfl⟩ := rest
    exact ⟨⟨_, _, _, _, rfl⟩, sol, result sol rfl, rfl⟩

theorem searchDirection_error {f : Failure α}
    (h : (searchDirection c).outcome s = (.error f, s')) :
    s.Kept s' ∧ (f = .evaluation .hessian ∨ ∃ fault, f = .newton fault) := by
  simp only [searchDirection, Step.outcome_bind_error] at h
  obtain refreshed | ⟨_, s₁, refreshed, solved | ⟨sol, s₂, solved, rest⟩⟩ := h
  · obtain ⟨⟨w, k, rfl⟩, named⟩ := refreshCurvature_outcome refreshed
    exact ⟨⟨_, _, _, _, rfl⟩, .inl (named f rfl)⟩
  · obtain ⟨⟨w₁, k, rfl⟩, -⟩ := refreshCurvature_outcome refreshed
    obtain ⟨⟨w₂, m, rfl⟩, -, named⟩ := newtonStep_outcome solved
    exact ⟨⟨_, _, _, _, rfl⟩, .inr (named f rfl)⟩
  · split at rest <;>
      simp only [Step.outcome_modify_bind, Step.outcome_get_bind, Step.outcome_pure, Prod.mk.injEq,
        reduceCtorEq, false_and] at rest

/-- A system that can be solved gives a direction. -/
theorem searchDirection_of_solved {s₁ : State α σ d} {sol : Newton.Solution α d}
    (refreshed : (refreshCurvature c).outcome s = (.ok (), s₁))
    (solved : (Newton.solve (.ofSettings c.settings) s₁.shifts (s₁.newtonData c)).result =
      .ok sol) :
    ∃ s', (searchDirection c).outcome s = (.ok (.ofNewton sol s₁.curr c.bounds s₁.mu), s') ∧
      s'.curvature = s₁.curvature ∧
      s'.shifts = (Newton.solve (.ofSettings c.settings) s₁.shifts (s₁.newtonData c)).memory := by
  rcases stepped : (newtonStep c).outcome s₁ with ⟨r, s₂⟩
  have result : r = .ok sol := by
    have first := congrArg Prod.fst stepped
    simp only [newtonStep, Step.outcome_ofOutcome, solved] at first
    exact first.symm
  subst result
  have memory := congrArg (·.2.shifts) stepped
  obtain ⟨⟨w, m, rfl⟩, -⟩ := newtonStep_outcome stepped
  rw [searchDirection, Step.outcome_bind, refreshed]
  simp only [Step.outcome_bind, stepped]
  split
  · obtain ⟨w', recorded⟩ := State.recordFrom_eq { s₁ with world := w, shifts := m } c 3
      (.inertiaCorrected sol.deltaW sol.deltaC)
    rw [Step.outcome_modify_bind, Step.outcome_get_bind, recorded]
    exact ⟨_, rfl, rfl, memory.symm⟩
  · rw [Step.outcome_get_bind]
    exact ⟨_, rfl, rfl, memory.symm⟩

/-- The part of an iteration before anything is moved: a direction, an accepted step along it and
the values at its point. -/
def chooseStep (c : Setup α σ d) : Run α σ d (Direction α d × Accepted α × Evaluation α d) := do
  let dir ← searchDirection c
  let s ← get
  let (acc, e) ← lineSearch c dir (s.curr.maxPrimalStep dir c.bounds s.tau)
  return (dir, acc, e)

/-- What the engine chose in one iteration from `s`: a direction and an accepted step along it. -/
structure Chosen (c : Setup α σ d) (s : State α σ d) (dir : Direction α d) (acc : Accepted α)
    (e : Evaluation α d) : Prop where
  step : ((chooseStep c).outcome s).1 = .ok (dir, acc, e)
  accepted : AcceptedFrom c s dir (s.curr.maxPrimalStep dir c.bounds s.tau) acc e

theorem Chosen.of_outcomes {dir : Direction α d} {acc : Accepted α} {e : Evaluation α d}
    {s₁ s₂ : State α σ d} (searched : (searchDirection c).outcome s = (.ok dir, s₁))
    (found : (lineSearch c dir (s₁.curr.maxPrimalStep dir c.bounds s₁.tau)).outcome s₁ =
      (.ok (acc, e), s₂)) : Chosen c s dir acc e := by
  have kept := (searchDirection_ok searched).1
  refine ⟨?_, ?_⟩
  · simp only [chooseStep, Step.outcome_bind, searched, Step.outcome_get, found, Step.outcome_pure]
  · rw [kept.maxSteps.1] at found
    exact (lineSearch_ok found).1.of_kept kept

/-- There is one choice. -/
theorem Chosen.unique {dir dir' : Direction α d} {acc acc' : Accepted α} {e e' : Evaluation α d}
    (chosen : Chosen c s dir acc e) (other : Chosen c s dir' acc' e') :
    dir = dir' ∧ acc = acc' ∧ e = e' := by
  have same := chosen.step.symm.trans other.step
  rwa [Except.ok.injEq, Prod.mk.injEq, Prod.mk.injEq] at same

/-- Whatever the first part of an iteration chooses is accepted. -/
theorem Chosen.of_chooseStep {dir : Direction α d} {acc : Accepted α} {e : Evaluation α d}
    (h : (chooseStep c).outcome s = (.ok (dir, acc, e), s')) : Chosen c s dir acc e := by
  simp only [chooseStep, Step.outcome_bind_ok, Step.outcome_get_bind, Step.outcome_pure,
    Prod.mk.injEq, Except.ok.injEq] at h
  obtain ⟨_, s₁, searched, ⟨_, _⟩, s₂, found, ⟨rfl, rfl, rfl⟩, rfl⟩ := h
  exact .of_outcomes searched found

/-- The direction of a chosen step is the search direction, and a tested step along it can be
measured. -/
theorem Chosen.searched {dir : Direction α d} {acc : Accepted α} {e : Evaluation α d}
    (chosen : Chosen c s dir acc e) :
    (∃ s₁, (searchDirection c).outcome s = (.ok dir, s₁)) ∧
      (acc.kind ≠ .tiny → ¬dir.relativeSize s.curr < tinyStep) := by
  rcases chose : (chooseStep c).outcome s with ⟨r, s'⟩
  have step := chosen.step
  rw [chose] at step
  subst step
  simp only [chooseStep, Step.outcome_bind_ok, Step.outcome_get_bind, Step.outcome_pure,
    Prod.mk.injEq, Except.ok.injEq] at chose
  obtain ⟨_, s₁, searched, ⟨_, _⟩, s₂, found, ⟨rfl, rfl, rfl⟩, rfl⟩ := chose
  refine ⟨⟨s₁, searched⟩, ?_⟩
  intro tested
  obtain ⟨w, k, m, t, rfl⟩ := (searchDirection_ok searched).1
  obtain ⟨w', ran, -⟩ := lineSearch_searched found
  exact searchStep_tested ran tested

/-- A completed iteration moves along a direction to an accepted point, evaluates everything there
and completes the multipliers and residuals. -/
theorem advance_ok (h : (advance c).outcome s = (.ok (), s')) :
    ∃ dir acc e e' moved, Chosen c s dir acc e ∧ e.SameValues e' ∧
      e'.AnswersAt c.problem (s.curr.trial dir c.bounds acc.alpha).x.point ∧
      (s.moveTo c dir acc e' (s.curr.maxDualStep dir c.bounds s.tau)).Kept moved ∧
      s' = moved.complete c dir acc (s.curr.maxDualStep dir c.bounds s.tau) := by
  simp only [advance, Step.outcome_bind_ok, Step.outcome_get_bind, Step.outcome_modify_bind,
    Step.outcome_modify, Prod.mk.injEq, true_and] at h
  obtain ⟨dir, s₁, searched, ⟨acc, e⟩, s₂, found, _, s₃, evaluated, rfl⟩ := h
  have chosen := Chosen.of_outcomes searched found
  have kept := (searchDirection_ok searched).1
  rw [kept.maxSteps.2] at evaluated ⊢
  obtain ⟨-, w₂, rfl⟩ := lineSearch_ok found
  obtain ⟨e', w₃, derivatives, rfl⟩ := evaluating_ok evaluated
  have kept₂ : s.Kept { s₁ with world := w₂, trialEval := e } := kept.trans ⟨_, _, _, _, rfl⟩
  rw [State.moveTo_eval, kept₂.moveTo_point] at derivatives
  exact ⟨dir, acc, e, e', _, chosen,
    (Evaluation.derivs_sameValues _ _ e).outcome ⟨rfl, rfl, rfl⟩ derivatives,
    Evaluation.derivs_ok chosen.accepted.values derivatives, kept₂.moveTo _ _ _ _ _ _, rfl⟩

/-- An accepted step is completed or fails as the derivatives at its point do. -/
theorem advance_of_accepted {dir : Direction α d} {acc : Accepted α} {e : Evaluation α d}
    {s₁ s₂ s₃ moved : State α σ d} {alphaDual : α} {r : Except (Failure α) Unit}
    (searched : (searchDirection c).outcome s = (.ok dir, s₁))
    (found : (lineSearch c dir (s₁.curr.maxPrimalStep dir c.bounds s₁.tau)).outcome s₁ =
      (.ok (acc, e), s₂))
    (longest : alphaDual = s₁.curr.maxDualStep dir c.bounds s₁.tau)
    (placed : moved = s₂.moveTo c dir acc e alphaDual)
    (evaluated : (evaluating (Evaluation.derivs c.problem moved.curr.x.point)).outcome moved =
      (r, s₃)) :
    (advance c).outcome s = match r with
      | .ok _ => (.ok (), s₃.complete c dir acc alphaDual)
      | .error f => (.error f, s₃) := by
  subst longest placed
  cases r <;>
    simp only [advance, Step.outcome_bind, searched, Step.outcome_get, found, Step.outcome_modify,
      evaluated]

/-- A failed iteration has moved nothing, unless a derivative at the new point failed: then the new
point and its moved bound multipliers are in place, and the rest is as before. -/
theorem advance_error {f : Failure α} (h : (advance c).outcome s = (.error f, s')) :
    (s.Kept s' ∧ (∀ q, f = .evaluation q → q.isDerivative = false) ∧
        ((chooseStep c).outcome s).1 = .error f) ∨
      ∃ dir acc e e' q, Chosen c s dir acc e ∧ e.SameValues e' ∧ f = .evaluation q ∧
        q.isDerivative = true ∧
        (s.moveTo c dir acc e' (s.curr.maxDualStep dir c.bounds s.tau)).Kept s' := by
  simp only [advance, Step.outcome_bind_error, Step.outcome_get_bind, Step.outcome_modify_bind,
    Step.outcome_modify, Prod.mk.injEq, reduceCtorEq, false_and, and_false, exists_false,
    or_false] at h
  obtain failed | ⟨dir, s₁, searched, failed | ⟨⟨acc, e⟩, s₂, found, failed⟩⟩ := h
  · obtain ⟨kept, named⟩ := searchDirection_error failed
    have undecided : ((chooseStep c).outcome s).1 = .error f := by
      simp only [chooseStep, Step.outcome_bind, failed]
    refine .inl ⟨kept, ?_, undecided⟩
    intro q same
    obtain rfl | ⟨fault, rfl⟩ := named
    · cases same
      rfl
    · cases same
  · have kept := (searchDirection_ok searched).1
    have undecided : ((chooseStep c).outcome s).1 = .error f := by
      simp only [chooseStep, Step.outcome_bind, searched, Step.outcome_get, failed]
    obtain ⟨named, w₂, t, rfl⟩ := lineSearch_error failed
    refine .inl ⟨kept.trans ⟨_, _, _, _, rfl⟩, ?_, undecided⟩
    intro q same
    obtain ⟨a, rfl⟩ | ⟨q', rfl, value⟩ := named
    · cases same
    · cases same
      cases q <;> simp_all [Quantity.isValue, Quantity.isDerivative]
  · have chosen := Chosen.of_outcomes searched found
    have kept := (searchDirection_ok searched).1
    rw [kept.maxSteps.2] at failed
    obtain ⟨-, w₂, rfl⟩ := lineSearch_ok found
    obtain ⟨q, e', w₃, derivatives, named, rfl⟩ := evaluating_error failed
    have kept₂ : s.Kept { s₁ with world := w₂, trialEval := e } := kept.trans ⟨_, _, _, _, rfl⟩
    exact .inr ⟨dir, acc, e, e', q, chosen,
      (Evaluation.derivs_sameValues _ _ e).outcome ⟨rfl, rfl, rfl⟩ derivatives, named,
      Evaluation.derivs_error derivatives, kept₂.moveTo _ _ _ _ _ _⟩

/-- An iteration does not fail by what it was set up with. -/
theorem statusOf_advance_error {f : Failure α} (h : (advance c).outcome s = (.error f, s')) :
    statusOf f ≠ .incompleteInit := by
  simp only [advance, Step.outcome_bind_error, Step.outcome_get_bind, Step.outcome_modify_bind,
    Step.outcome_modify, Prod.mk.injEq, reduceCtorEq, false_and, and_false, exists_false,
    or_false] at h
  obtain failed | ⟨dir, s₁, -, failed | ⟨⟨acc, e⟩, s₂, -, failed⟩⟩ := h
  · obtain rfl | ⟨fault, rfl⟩ := (searchDirection_error failed).2 <;> nofun
  · obtain ⟨a, rfl⟩ | ⟨q, rfl, -⟩ := (lineSearch_error failed).1 <;> nofun
  · obtain ⟨q, e', w, -, rfl, -⟩ := evaluating_error failed
    nofun

end Barrier

end SmoothOpt
