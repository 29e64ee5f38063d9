import Mathlib
import SmoothOpt.Proofs.Barrier.Ray

/-!
Every run in exact arithmetic stays strictly inside the bounds.

The invariant of `Positivity` holds of every report and at every exit. What is left of it at an exit
by a failed derivative is shown on the ray: there the multipliers have been moved and not clipped.
-/
namespace SmoothOpt.Barrier

open Linear

section Runs

variable {σ ω : Type} {d : Dims} [DenseSolver ℝ]

/-- Every report of a run and the state it leaves are strictly interior, with the distances of the
start carried along. After a completed iteration, every report has its multipliers clipped for the
barrier parameter of the report before, and so has the state the run leaves, unless a derivative at
a new point failed. -/
theorem run_stays_interior (e : Engine ℝ σ d) (obs : Observer ℝ d ω) (o : ω) {first : State ℝ σ d}
    (inRange : e.setup.settings.InRange)
    (started : (startingProcedure e.setup).outcome e.opened = (.ok (), first)) :
    ∃ reports ending last, e.Follows obs o first reports ending last ∧
      (∀ s, s ∈ reports ∨ s = last →
        s.curr.Interior e.setup.bounds ∧
          s.curr.CarriedFrom e.setup.bounds minSlack first.curr) ∧
      ∀ s, s ∈ reports ∨
          s = last ∧ (∀ q, ending = .error (.evaluation q) → q.isDerivative = false) →
        0 < s.iter → ∃ r, reports[s.iter - 1]? = some r ∧
          s.curr.Clipped e.setup.bounds r.mu e.setup.settings.kappaSigma := by
  obtain ⟨reports, ending, last, follows⟩ := e.run_follows obs o started
  have exit := follows.at_exit inRange
  refine ⟨reports, ending, last, follows, ?_, ?_⟩
  · rintro s (member | rfl)
    · obtain ⟨init, rest, -, after⟩ := follows.at_report inRange member
      exact ⟨after.inside.curr, after.inside.carried⟩
    · exact ⟨exit.1.curr, exit.1.carried⟩
  · rintro s (member | ⟨rfl, regular⟩) completed
    · obtain ⟨init, rest, rfl, after⟩ := follows.at_report inRange member
      exact after.previous completed rest
    · obtain ⟨init, rest, rfl, after⟩ := exit.2 regular
      exact after.previous completed rest

end Runs

open scoped Linear.Exact

/-- The ray from one, with a gradient that fails beyond ten. -/
theorem ray_stays_interior : ∃ first reports ending last,
    (Ray.engine 10 1e-8).Follows Observer.silent () first reports ending last ∧
      ∀ s, s ∈ reports ∨ s = last → s.curr.Interior Ray.bounds ∧
        s.curr.CarriedFrom Ray.bounds minSlack first.curr := by
  have positive : (0 : ℝ) < 1e-8 := by norm_num
  obtain ⟨first, started, -⟩ := Ray.engine_started positive (by norm_num : (1 : ℝ) ≤ 10)
  obtain ⟨reports, ending, last, follows, inside, -⟩ :=
    run_stays_interior (Ray.engine 10 1e-8) Observer.silent () (Ray.settings_inRange positive)
      started
  exact ⟨first, reports, ending, last, follows, inside⟩

/-- On the same ray the second iteration fails at the gradient of its new point. The first one is
completed, and yet the product of distance and multiplier is not within the factor of the barrier
parameter, which was one in both. -/
theorem ray_exit_unclipped : (Ray.settings 1e-8).InRange ∧ ∃ first reports last,
    (Ray.engine 10 1e-8).Follows Observer.silent () first reports
      (.error (.evaluation .gradient)) last ∧
    last.iter = 1 ∧ last.mu = 1 ∧ (∀ r ∈ reports, r.mu = 1) ∧
      ¬ last.curr.Clipped Ray.bounds 1 (Ray.settings 1e-8).kappaSigma := by
  obtain ⟨first, r₀, r₁, last, follows, h₀, h₁, placed, counted⟩ :=
    Ray.failing_run Exact.exactSolver_exact
  refine ⟨Ray.settings_inRange (by norm_num), first, _, last, follows, counted, placed.mu, ?_, ?_⟩
  · simp only [List.forall_mem_cons, List.not_mem_nil, false_implies, implies_true, and_true]
    exact ⟨h₀.mu, h₁.mu⟩
  · intro clipped
    have window := (clipped.x.lower 0 Ray.lower_present).2
    rw [placed.slack, placed.mult] at window
    norm_num [Ray.settings] at window

end SmoothOpt.Barrier
