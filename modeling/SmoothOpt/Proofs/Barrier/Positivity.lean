import Mathlib
import SmoothOpt.Proofs.Barrier.Coherence
import SmoothOpt.Proofs.Barrier.Interior
import SmoothOpt.Proofs.Problem.Functions
import SmoothOpt.Proofs.Settings.Range

/-!
Runs in exact arithmetic stay strictly inside the bounds.

From the start on, every present distance and bound multiplier is positive, every absent one is
zero, and a carried distance differs from the true one by what the floor added at the start. After
a completed iteration the clipped multipliers keep every product of a distance with its multiplier
near the barrier parameter of that iteration. An iteration that fails at a derivative of the new
point has moved the multipliers and not yet clipped them, so there the last part does not apply.
-/
namespace SmoothOpt

open Scalar Linear

namespace Schedule

variable {settings : InteriorSettings ℝ} {mu : ℝ}

theorem next_pos (inRange : settings.InRange) (mu : ℝ) : 0 < (ofSettings settings).next mu := by
  have floor_pos : 0 < (ofSettings settings).muMin := by
    simp only [ofSettings]
    have := inRange.tolerance
    positivity
  simp only [next, maxNum_real]
  exact lt_max_of_lt_left floor_pos

theorem tau_pos (inRange : settings.InRange) (mu : ℝ) : 0 < (ofSettings settings).tau mu := by
  simp only [tau, ofSettings, maxNum_real]
  exact lt_max_of_lt_left inRange.tauMin.1

theorem tau_mem (inRange : settings.InRange) (mu_pos : 0 < mu) :
    0 ≤ (ofSettings settings).tau mu ∧ (ofSettings settings).tau mu < 1 := by
  refine ⟨(tau_pos inRange mu).le, ?_⟩
  simp only [tau, ofSettings, maxNum_real]
  refine max_lt inRange.tauMin.2 ?_
  linarith

end Schedule

theorem halved_mem {alpha : ℝ} (alpha_nonneg : 0 ≤ alpha) (k : Nat) :
    0 ≤ halved alpha k ∧ halved alpha k ≤ alpha := by
  induction k generalizing alpha with
  | zero => exact ⟨alpha_nonneg, le_rfl⟩
  | succ k ih =>
    have half_nonneg : 0 ≤ alpha * 0.5 := by positivity
    have half_le : alpha * 0.5 ≤ alpha := by
      norm_num
      linarith
    obtain ⟨nonneg, le⟩ := ih half_nonneg
    exact ⟨nonneg, le.trans half_le⟩

theorem halved_pos {alpha : ℝ} (alpha_pos : 0 < alpha) (k : Nat) : 0 < halved alpha k := by
  induction k generalizing alpha with
  | zero => exact alpha_pos
  | succ k ih => exact ih (by positivity)

namespace Barrier

variable {σ ω : Type} {d : Dims} {c : Setup ℝ σ d} {s s' : State ℝ σ d} {start : Iterate ℝ d}

/-- In exact arithmetic a start succeeds where the callbacks do at the pushed starting point. -/
theorem startingProcedure_succeeds [DenseSolver ℝ]
    (given : ∀ w, (c.problem.start.run w).1.ok = true)
    (succeeds : ∀ x0, AnsweredOver (Vector.replicate _ 0) c.problem.start x0 →
      c.problem.SucceedsAt (c.bounds.x.pushInside c.settings.kappa1 c.settings.kappa2 x0))
    (s : State ℝ σ d) : ∃ first, (startingProcedure c).outcome s = (.ok (), first) := by
  rcases started : (startingProcedure c).outcome s with ⟨f | _, first⟩
  · simp only [startingProcedure, Step.outcome_bind_error, Step.outcome_modify_bind,
      Step.outcome_modify, Prod.mk.injEq, reduceCtorEq, false_and, and_false, exists_false,
      or_false] at started
    obtain refused | ⟨x0, s₁, asked, failed⟩ := started
    · rw [outcome_askStart] at refused
      simp only [given, allFinite_real] at refused
      cases refused
    · obtain ⟨q, e, w, ran, -⟩ := evaluating_error failed
      obtain ⟨answered, -⟩ := (askStart_outcome asked).2 x0 rfl
      obtain ⟨t, succeeded⟩ := Evaluation.all_succeeds (succeeds x0 answered) _
      cases succeeded.symm.trans ran
  · exact ⟨first, rfl⟩

/-- The barrier parameter is positive, with its own fraction-to-boundary parameter, and the current
point is interior, with the distances carried from `start`. -/
structure State.Interior (s : State ℝ σ d) (c : Setup ℝ σ d) (start : Iterate ℝ d) : Prop where
  mu : 0 < s.mu
  tau : s.tau = c.schedule.tau s.mu
  curr : s.curr.Interior c.bounds
  carried : s.curr.CarriedFrom c.bounds minSlack start

theorem State.Interior.tau_mem (inRange : c.settings.InRange) (h : s.Interior c start) :
    0 ≤ s.tau ∧ s.tau < 1 := by
  rw [h.tau]
  exact Schedule.tau_mem inRange h.mu

theorem State.Interior.of_kept (h : s.Interior c start) (kept : s.Kept s') :
    s'.Interior c start := by
  obtain ⟨w, k, m, t, rfl⟩ := kept
  exact ⟨h.mu, h.tau, h.curr, h.carried⟩

theorem State.Interior.reported (inRange : c.settings.InRange) (h : s.Interior c start) :
    (s.reported c).Interior c start := by
  apply State.updateBarrier_preserves (P := fun s => s.Interior c start)
  · intro s w _ h _ _
    exact ⟨Schedule.next_pos inRange _, rfl, h.curr, h.carried⟩
  · exact ⟨h.mu, h.tau, h.curr, h.carried⟩

/-- An accepted step, with the longest step of the bound multipliers, leads to an interior
point. -/
theorem State.Interior.moveTo (inRange : c.settings.InRange) (h : s.Interior c start)
    {dir : Direction ℝ d} {acc : Accepted ℝ} {e : Evaluation ℝ d}
    (accepted : AcceptedFrom c s dir (s.curr.maxPrimalStep dir c.bounds s.tau) acc e)
    (e' : Evaluation ℝ d) :
    (s.moveTo c dir acc e' (s.curr.maxDualStep dir c.bounds s.tau)).Interior c start := by
  have tau := h.tau_mem inRange
  have longest := Iterate.maxPrimalStep_nonneg h.curr.slacksPositive tau.1 dir
  obtain ⟨nonneg, admissible⟩ := halved_mem longest acc.backtracks
  rw [← accepted.length] at nonneg admissible
  have point := h.curr.trial tau.1 tau.2 nonneg admissible
  -- the trial point has the multipliers of the current one, so the rule allows the same step
  have same : (s.curr.trial dir c.bounds acc.alpha).maxDualStep dir c.bounds s.tau =
      s.curr.maxDualStep dir c.bounds s.tau := rfl
  have moved := point.takeBoundStep tau.1 tau.2 dir
  rw [same] at moved
  have carried := h.carried.trial dir acc.alpha
  exact ⟨h.mu, h.tau, moved, ⟨carried.x.of_same rfl rfl rfl, carried.s.of_same rfl rfl rfl⟩⟩

/-- An accepted step has a positive length. -/
theorem State.Interior.alpha_pos (inRange : c.settings.InRange) (h : s.Interior c start)
    {dir : Direction ℝ d} {acc : Accepted ℝ} {e : Evaluation ℝ d}
    (accepted : AcceptedFrom c s dir (s.curr.maxPrimalStep dir c.bounds s.tau) acc e) :
    0 < acc.alpha := by
  have tau_pos : 0 < s.tau := by
    rw [h.tau]
    exact Schedule.tau_pos inRange s.mu
  rw [accepted.length]
  exact halved_pos (Iterate.maxPrimalStep_pos h.curr.slacksPositive tau_pos dir) _

/-- It is at most one. -/
theorem State.Interior.alpha_le_one (inRange : c.settings.InRange) (h : s.Interior c start)
    {dir : Direction ℝ d} {acc : Accepted ℝ} {e : Evaluation ℝ d}
    (accepted : AcceptedFrom c s dir (s.curr.maxPrimalStep dir c.bounds s.tau) acc e) :
    acc.alpha ≤ 1 := by
  have tau_nonneg := (h.tau_mem inRange).1
  have longest := Iterate.maxPrimalStep_nonneg h.curr.slacksPositive tau_nonneg dir
  rw [accepted.length]
  exact (halved_mem longest acc.backtracks).2.trans
    (Iterate.maxPrimalStep_le_one h.curr.slacksPositive tau_nonneg dir)

theorem reported_frame {α : Type} [Scalar α] (c : Setup α σ d) (s : State α σ d) :
    (s.reported c).curr = s.curr ∧ (s.reported c).iter = s.iter := by
  apply State.updateBarrier_preserves (P := fun t => t.curr = s.curr ∧ t.iter = s.iter)
  · intro t w _ same _ _
    exact same
  · exact ⟨rfl, rfl⟩

/-- An interior state after the reports `before`: it is numbered by them, and its multipliers are
clipped for the barrier parameter of the last one. -/
structure InteriorAfter (c : Setup ℝ σ d) (start : Iterate ℝ d) (before : List (State ℝ σ d))
    (s : State ℝ σ d) : Prop where
  inside : s.Interior c start
  numbered : s.iter = before.length
  clipped : ∀ r, before.getLast? = some r →
    s.curr.Clipped c.bounds r.mu c.settings.kappaSigma

/-- After a completed iteration the report it began with is at hand. -/
theorem InteriorAfter.previous {before : List (State ℝ σ d)} (h : InteriorAfter c start before s)
    (completed : 0 < s.iter) (later : List (State ℝ σ d)) :
    ∃ r, (before ++ later)[s.iter - 1]? = some r ∧
      s.curr.Clipped c.bounds r.mu c.settings.kappaSigma := by
  rw [h.numbered] at completed ⊢
  have nonempty : before ≠ [] := List.ne_nil_of_length_pos completed
  have last := List.getLast?_eq_some_getLast nonempty
  refine ⟨before.getLast nonempty, ?_, h.clipped _ last⟩
  rw [List.getElem?_append_left (by omega), ← List.getLast?_eq_getElem?]
  exact last

variable [DenseSolver ℝ]

/-- A successful start leaves an interior state, carried from its own point. -/
theorem State.Interior.of_start (inRange : c.settings.InRange)
    (h : (startingProcedure c).outcome s = (.ok (), s')) : s'.Interior c s'.curr := by
  obtain ⟨x0, e, y, w, -, -, rfl⟩ := startingProcedure_ok h
  have floor_pos : (0 : ℝ) < minSlack := by
    norm_num [minSlack]
  exact ⟨inRange.mu0, rfl,
    ⟨Block.interior_start floor_pos one_pos, Block.interior_start floor_pos one_pos⟩,
    ⟨Block.carriedFrom_start _ _, Block.carriedFrom_start _ _⟩⟩

/-- A completed iteration leads from an interior state to an interior state whose multipliers are
clipped for the barrier parameter of the iteration. -/
theorem State.Interior.of_advance (inRange : c.settings.InRange) (h : s.Interior c start)
    (step : (advance c).outcome s = (.ok (), s')) :
    s'.Interior c start ∧ s'.iter = s.iter + 1 ∧
      s'.curr.Clipped c.bounds s.mu c.settings.kappaSigma := by
  obtain ⟨dir, acc, e, e', moved, chosen, -, -, kept, rfl⟩ := advance_ok step
  have inside := (h.moveTo inRange chosen.accepted e').of_kept kept
  have same_mu : moved.mu = s.mu := by
    obtain ⟨w, k, m, t, rfl⟩ := kept
    rfl
  have same_iter : moved.iter = s.iter := by
    obtain ⟨w, k, m, t, rfl⟩ := kept
    rfl
  obtain ⟨w, y, completed⟩ := complete_eq moved c dir acc (s.curr.maxDualStep dir c.bounds s.tau)
  have refreshed : (moved.curr.withConstraintMultipliers y).Interior c.bounds :=
    ⟨inside.curr.x, inside.curr.s⟩
  rw [completed, ← same_mu, ← same_iter]
  refine ⟨⟨inside.mu, inside.tau, refreshed.clip inside.mu inRange.kappaSigma, ?_⟩, rfl,
    refreshed.clipped inside.mu inRange.kappaSigma⟩
  exact ⟨inside.carried.x.of_same rfl rfl rfl, inside.carried.s.of_same rfl rfl rfl⟩

/-- A failed iteration leaves an interior state. -/
theorem State.Interior.of_failure {f : Failure ℝ} (inRange : c.settings.InRange)
    (h : s.Interior c start) (step : (advance c).outcome s = (.error f, s')) :
    s'.Interior c start := by
  obtain ⟨kept, -⟩ | ⟨dir, acc, e, e', q, chosen, -, -, -, kept⟩ := advance_error step
  · exact h.of_kept kept
  · exact (h.moveTo inRange chosen.accepted e').of_kept kept

theorem interiorAfter_preserved (inRange : c.settings.InRange) (start : Iterate ℝ d) :
    Preserved c (InteriorAfter c start) where
  check before s h :=
    ⟨⟨h.inside.mu, h.inside.tau, h.inside.curr, h.inside.carried⟩, h.numbered, h.clipped⟩
  report before s h := by
    obtain ⟨same_curr, same_iter⟩ := reported_frame c s
    refine ⟨h.inside.reported inRange, ?_, ?_⟩
    · rw [same_iter]
      exact h.numbered
    · rw [same_curr]
      exact h.clipped
  step before s s' h step := by
    obtain ⟨inside, counted, clipped⟩ := h.inside.of_advance inRange step
    refine ⟨inside, ?_, ?_⟩
    · rw [counted, h.numbered, List.length_append, List.length_singleton]
    · intro r last
      rw [List.getLast?_concat, Option.some.injEq] at last
      rw [← last]
      exact clipped

namespace Engine

variable {e : Engine ℝ σ d} {obs : Observer ℝ d ω} {o : ω} {first last : State ℝ σ d}
  {reports : List (State ℝ σ d)} {ending : Except (Failure ℝ) Status}

theorem Follows.beginning (follows : e.Follows obs o first reports ending last)
    (inRange : e.setup.settings.InRange) :
    InteriorAfter e.setup first.curr [] (first.headed e.setup) := by
  have inside := State.Interior.of_start inRange follows.start
  have unnumbered := iter_of_start follows.start
  obtain ⟨w, headed⟩ := first.headed_eq e.setup
  rw [headed]
  refine ⟨⟨inside.mu, inside.tau, inside.curr, inside.carried⟩, unnumbered, ?_⟩
  intro r last
  cases last

theorem Follows.at_report (follows : e.Follows obs o first reports ending last)
    (inRange : e.setup.settings.InRange) (member : s ∈ reports) :
    ∃ init rest, reports = init ++ rest ∧ InteriorAfter e.setup first.curr init s := by
  obtain ⟨o', course⟩ := follows.course
  obtain ⟨init, rest, cut⟩ := List.append_of_mem member
  exact ⟨init, s :: rest, cut, course.reports_hold (interiorAfter_preserved inRange first.curr) []
    (follows.beginning inRange) init s rest cut⟩

/-- The state a run leaves is interior however the run ended. It is also clipped, unless a
derivative failed. -/
theorem Follows.at_exit (follows : e.Follows obs o first reports ending last)
    (inRange : e.setup.settings.InRange) :
    last.Interior e.setup first.curr ∧
      ((∀ q, ending = .error (.evaluation q) → q.isDerivative = false) →
        ∃ init rest, reports = init ++ rest ∧ InteriorAfter e.setup first.curr init last) := by
  obtain ⟨o', course⟩ := follows.course
  have preserved := interiorAfter_preserved inRange first.curr
  have exit := course.exit_holds preserved [] (follows.beginning inRange)
  rw [List.nil_append] at exit
  cases exit with
  | spent after =>
    refine ⟨after.inside, ?_⟩
    intro _
    exact ⟨reports, [], (List.append_nil _).symm, after⟩
  | decided before verdict =>
    have after := preserved.check _ _ before
    refine ⟨after.inside, ?_⟩
    intro _
    exact ⟨reports, [], (List.append_nil _).symm, after⟩
  | stopped after =>
    refine ⟨after.inside, ?_⟩
    intro _
    exact ⟨_, _, rfl, after⟩
  | failed after step =>
    refine ⟨after.inside.of_failure inRange step, ?_⟩
    intro regular
    obtain ⟨kept, -⟩ | ⟨dir, acc, eval, eval', q, -, -, rfl, derivative, -⟩ := advance_error step
    · obtain ⟨w, k, m, t, rfl⟩ := kept
      exact ⟨_, _, rfl, ⟨after.inside.of_kept ⟨w, k, m, t, rfl⟩, after.numbered, after.clipped⟩⟩
    · rw [regular q rfl] at derivative
      cases derivative

end Engine

end Barrier

end SmoothOpt
