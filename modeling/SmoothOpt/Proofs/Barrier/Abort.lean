import Mathlib
import SmoothOpt.Proofs.Barrier.Ray
import SmoothOpt.Proofs.Problem.Fault

/-!
What a run returns when an iteration fails.

An iteration can fail at the Hessian, in the Newton system, at the values of a trial point, for want
of step lengths, or at a derivative of the point it has moved to. In the first four cases nothing
has moved, and the result is that of the state last reported. In the last case it is not: the new point,
its objective, its bound multipliers and the grown filter stand beside the constraint multipliers,
the errors and the iteration count of the point before. The ray shows the two points side by side.
No report is made where a fault of the problem lets an evaluation fail.
-/
namespace SmoothOpt.Barrier

open Scalar Linear

section Runs

variable {α σ ω : Type} [Scalar α] {d : Dims}

namespace State

/-- The result of a state when a run ends there by a failure. Only the count of shifts is not taken
from the state: the failed iteration may have needed one more. -/
def abandoned (s : State α σ d) (cause : Failure α) (bumps : Nat) : SolveResult α d :=
  { s.result with
    status := statusOf cause
    info := { s.result.info with primalBumps := bumps } }

/-- The iterate a step leads to before its multipliers are completed. -/
def movedIterate (s : State α σ d) (c : Setup α σ d) (dir : Direction α d) (acc : Accepted α) :
    Iterate α d :=
  (s.curr.trial dir c.bounds acc.alpha).takeBoundStep dir c.bounds
    (s.curr.maxDualStep dir c.bounds s.tau)

/-- The result of a state when a run ends after a step from it, at a derivative of the new point. -/
def abandonedAfter (s : State α σ d) (c : Setup α σ d) (dir : Direction α d) (acc : Accepted α)
    (obj : α) (cause : Failure α) (bumps : Nat) : SolveResult α d :=
  let it := s.movedIterate c dir acc
  let kept := s.abandoned cause bumps
  { kept with
    x := it.x.point
    zl := it.x.multLo
    zu := it.x.multHi
    obj := obj
    info := { kept.info with
      filterSize := if acc.kind = .filter then s.filter.size + 1 else s.filter.size } }

end State

variable [DenseSolver α] {e : Engine α σ d} {obs : Observer α d ω} {o : ω}
  {first last : State α σ d} {reports : List (State α σ d)} {f : Failure α}

/-- On a problem with faults no point is reported where a failing one acts on an evaluation. -/
theorem Engine.Follows.report_avoids {ending : Except (Failure α) Status}
    (follows : e.Follows obs o first reports ending last) {p : Problem α σ d}
    {faults : List (Fault α)} (faulty : e.setup.problem = p.faulty faults) {r : State α σ d}
    (reported : r ∈ reports) {fault : Fault α} (member : fault ∈ faults) (fails : fault.Fails)
    {q : Quantity} (same : fault.callback = .evaluation q)
    (evaluated : q.isValue = true ∨ q.isDerivative = true) :
    fault.acts (some r.curr.x.point.toList) = false := by
  have answers := (follows.coherent_report reported).eval
  rw [faulty] at answers
  exact answers.not_acts member fails same evaluated

/-- The result of a run that a failed iteration ended, in terms of the last report. -/
theorem Engine.Follows.failed_result (follows : e.Follows obs o first reports (.error f) last) :
    ∃ init r, reports = init ++ [r] ∧ r.Coherent e.setup ∧
      ((∀ q, f = .evaluation q → q.isDerivative = false) ∧
          (e.run obs o).1 = r.abandoned f (e.run obs o).1.info.primalBumps ∨
        ∃ q dir acc eval, f = .evaluation q ∧ q.isDerivative = true ∧
          Chosen e.setup r dir acc eval ∧ (e.run obs o).1 =
            r.abandonedAfter e.setup dir acc eval.f f (e.run obs o).1.info.primalBumps) := by
  obtain ⟨o', course⟩ := follows.course
  have exit := course.exit_holds (coherent_preserved e.setup) [] follows.coherent_beginning
  rw [List.nil_append] at exit
  cases exit with
  | failed coherent step =>
    rename_i init r
    refine ⟨init, r, rfl, coherent, ?_⟩
    rw [follows.result]
    obtain ⟨kept, regular, -⟩ | ⟨dir, acc, eval, eval', q, chosen, same, rfl, derivative, kept⟩ :=
      advance_error step
    · obtain ⟨w, k, m, t, rfl⟩ := kept
      exact .inl ⟨regular, rfl⟩
    · obtain ⟨w, k, m, t, rfl⟩ := kept
      refine .inr ⟨q, dir, acc, eval, rfl, derivative, chosen, ?_⟩
      have size : (if acc.kind = .filter then r.filter.add (r.measures e.setup).theta
          (r.measures e.setup).phi else r.filter).size =
            if acc.kind = .filter then r.filter.size + 1 else r.filter.size := by
        split
        · simp only [Filter.size, Filter.add, List.length_append, List.length_singleton]
        · rfl
      simp only [State.result, State.moveTo, State.abandonedAfter, State.abandoned,
        State.movedIterate, endingStatus, size, same.f]
      rfl

/-- A run that started and then ended with a failure returns the state it reported last, with a
fresh count of shifts, unless a derivative failed at a new point. -/
theorem failed_run_returns_report (started :
      (startingProcedure e.setup).outcome e.opened = (.ok (), first))
    (failure : (e.run obs o).1.status.isFailure = true) :
    ∃ init r f last, e.Follows obs o first (init ++ [r]) (.error f) last ∧ r.Coherent e.setup ∧
      ((∀ q, f = .evaluation q → q.isDerivative = false) ∧
          (e.run obs o).1 = r.abandoned f (e.run obs o).1.info.primalBumps ∨
        ∃ q dir acc eval, f = .evaluation q ∧ q.isDerivative = true ∧
          Chosen e.setup r dir acc eval ∧ (e.run obs o).1 =
            r.abandonedAfter e.setup dir acc eval.f f (e.run obs o).1.info.primalBumps) := by
  obtain ⟨reports, f, last, follows⟩ := Engine.follows_of_failure started failure
  obtain ⟨init, r, rfl, coherent, result⟩ := follows.failed_result
  exact ⟨init, r, f, last, follows, coherent, result⟩

end Runs

open scoped Linear.Exact

/-- The ray with a gradient that fails beyond ten. -/
theorem ray_returns_report :
    let run := (Ray.engine 10 1e-8).run Observer.silent ()
    run.1.status.isFailure = true ∧ ∃ first init r f last,
      (Ray.engine 10 1e-8).Follows Observer.silent () first (init ++ [r]) (.error f) last ∧
      r.Coherent (Ray.setup 10 1e-8) ∧
      ((∀ q, f = .evaluation q → q.isDerivative = false) ∧
          run.1 = r.abandoned f run.1.info.primalBumps ∨
        ∃ q dir acc eval, f = .evaluation q ∧ q.isDerivative = true ∧
          Chosen (Ray.setup 10 1e-8) r dir acc eval ∧
          run.1 =
            r.abandonedAfter (Ray.setup 10 1e-8) dir acc eval.f f run.1.info.primalBumps) := by
  obtain ⟨first, r₀, r₁, last, follows, -⟩ := Ray.failing_run Exact.exactSolver_exact
  have failure : ((Ray.engine 10 1e-8).run Observer.silent ()).1.status.isFailure = true := by
    rw [follows.status_eq]
    rfl
  exact ⟨failure, first, failed_run_returns_report follows.start failure⟩

/-- On the same ray the run ends at the gradient of the point fifteen, which it returns with its
objective, and with the errors and the iteration count of the point three that it reported last. -/
theorem ray_abort_mixes_points : ∃ first r₀ r last,
    (Ray.engine 10 1e-8).Follows Observer.silent () first [r₀, r] (.error (.evaluation .gradient))
      last ∧
    r.curr.x.point.get 0 = 3 ∧ r.eval.f = -3 ∧
    ((Ray.engine 10 1e-8).run Observer.silent ()).1.x.get 0 = 15 ∧
    ((Ray.engine 10 1e-8).run Observer.silent ()).1.obj = -15 ∧
    ((Ray.engine 10 1e-8).run Observer.silent ()).1.info.errOverall = r.resid.nlpOverall ∧
    ((Ray.engine 10 1e-8).run Observer.silent ()).1.info.iters = r.iter := by
  obtain ⟨first, r₀, r₁, last, follows, -, h, placed, -⟩ := Ray.failing_run Exact.exactSolver_exact
  obtain ⟨init, r, same, coherent, ⟨regular, -⟩ | ⟨q, dir, acc, eval, -, -, chosen, result⟩⟩ :=
    follows.failed_result
  · cases regular _ rfl
  · obtain rfl : r = r₁ := by
      have tail := congrArg List.getLast? same
      rw [List.getLast?_concat] at tail
      exact (Option.some.inj tail).symm
    have x : ((Ray.engine 10 1e-8).run Observer.silent ()).1.x.get 0 = 15 := by
      rw [follows.x_eq]
      exact placed.point
    refine ⟨first, r₀, r, last, follows, h.point, ?_, x, ?_, ?_, ?_⟩
    · rw [(Ray.values_of_answers coherent.eval).1]
      exact congrArg Neg.neg h.point
    · have value : eval.f = -(r.curr.trial dir Ray.bounds acc.alpha).x.point.get 0 :=
        chosen.accepted.values.f.eq_of_written rfl
      rw [result] at x ⊢
      exact value.trans (congrArg Neg.neg x)
    · rw [result]
      rfl
    · rw [result]
      rfl

end SmoothOpt.Barrier
