import SmoothOpt.Proofs.Barrier.Rerun
import SmoothOpt.Proofs.Barrier.Watch

/-!
The protocol of a run: what the observer is told, when the callbacks are made, how the status and the
counts follow from it.

The observer is told the iterations in order and at last the result. It is told no iteration after
one at which it asks for a stop, and no evaluation is made after one that fails; either ends the run
with its own status. An observer that notes what it is told and a problem under watch make all of
this a property of two lists.
-/
namespace SmoothOpt

open Scalar Linear

/-- What an observer is told. -/
inductive Notice (α : Type) (d : Dims) where
  /-- An iteration, and whether the observer asked for a stop. -/
  | iteration (info : IterationInfo α) (stop : Bool)
  | solution (res : SolveResult α d)

/-- The same observer with a list of what it was told, oldest first. -/
def Observer.noting {α ω : Type} {d : Dims} (obs : Observer α d ω) :
    Observer α d (ω × List (Notice α d)) where
  onIteration := fun info (o, notices) =>
    let (stop, o') := obs.onIteration info o
    (stop, (o', notices ++ [.iteration info stop]))
  onSolution := fun res (o, notices) => (obs.onSolution res o, notices ++ [.solution res])

/-- An iteration as it was told, with the answer of the observer. -/
structure Telling (α : Type) where
  info : IterationInfo α
  stop : Bool

def Telling.notice {α : Type} {d : Dims} (t : Telling α) : Notice α d := .iteration t.info t.stop

/-- Iterations told one after the other, numbered from `first`: only the last may be one at which
the observer asks for a stop, and it does if and only if `stopped`. -/
structure ToldInOrder {α : Type} (first : Nat) (stopped : Prop) (told : List (Telling α)) : Prop where
  numbered : told.map (·.info.iter) = List.range' first told.length
  unstopped : ∀ t ∈ told.dropLast, t.stop = false
  last : stopped ↔ ∃ t, told.getLast? = some t ∧ t.stop = true

namespace ToldInOrder

variable {α : Type} {first : Nat} {stopped : Prop} {told : List (Telling α)} {t : Telling α}

theorem nil (going : ¬stopped) : ToldInOrder (α := α) first stopped [] where
  numbered := rfl
  unstopped := nofun
  last := by simp [going]

theorem single (numbered : t.info.iter = first) (answer : stopped ↔ t.stop = true) :
    ToldInOrder first stopped [t] where
  numbered := by simp [numbered]
  unstopped := nofun
  last := by simp [answer]

theorem cons (numbered : t.info.iter = first) (going : t.stop = false)
    (rest : ToldInOrder (first + 1) stopped told) : ToldInOrder first stopped (t :: told) := by
  cases told with
  | nil =>
    refine .single numbered ?_
    rw [rest.last, going]
    simp
  | cons t' told =>
    refine ⟨?_, ?_, ?_⟩
    · rw [List.map_cons, rest.numbered, numbered]
      rfl
    · rw [List.dropLast_cons_of_ne_nil (List.cons_ne_nil _ _)]
      intro u member
      rcases List.mem_cons.mp member with rfl | later
      · exact going
      · exact rest.unstopped u later
    · rw [rest.last, List.getLast?_cons_cons]

end ToldInOrder

namespace Barrier

variable {α σ ω : Type} [Scalar α] [DenseSolver α] {d : Dims} {c : Setup α σ d}
  {obs : Observer α d ω} {left : Nat} {s last : State α σ d} {reports : List (State α σ d)}
  {ending : Except (Failure α) Status}

/-- What a course tells its observer, in order. -/
theorem Course.told {o o' : ω × List (Notice α d)}
    (course : Course c obs.noting left s o reports ending last o') :
    ∃ told : List (Telling α), o'.2 = o.2 ++ told.map Telling.notice ∧
      ToldInOrder s.iter (endingStatus ending = .userStopped) told := by
  have noted {r : State α σ d} {o o' : ω × List (Notice α d)} {stop : Bool}
      (answer : obs.noting.onIteration (r.info c) o = (stop, o')) :
      o'.2 = o.2 ++ [Telling.notice ⟨r.info c, stop⟩] := by
    cases answer
    rfl
  have numbered (s : State α σ d) : ((s.reported c).info c).iter = s.iter := by
    have shown (r : State α σ d) : (r.info c).iter = r.iter := rfl
    rw [shown, (s.reported_checked c).1]
  induction course with
  | spent s o => exact ⟨[], (List.append_nil _).symm, .nil nofun⟩
  | decided verdict =>
    refine ⟨[], (List.append_nil _).symm, .nil ?_⟩
    rintro rfl
    obtain ⟨⟨⟩, -⟩ | ⟨⟨⟩, -⟩ | ⟨⟨⟩⟩ | ⟨⟨⟩⟩ := Termination.check_cases verdict
  | @stopped left s o o' undecided answer =>
    refine ⟨[⟨(s.reported c).info c, true⟩], noted answer, .single (numbered s) ?_⟩
    exact iff_of_true rfl rfl
  | @failed left s s' o o' f undecided answer step =>
    refine ⟨[⟨(s.reported c).info c, false⟩], noted answer, .single (numbered s) ?_⟩
    refine iff_of_false ?_ nofun
    cases f <;> nofun
  | @stepped left s s' last o o' o'' reports ending undecided answer step rest ih =>
    obtain ⟨told, later, order⟩ := ih
    have counted : s'.iter = s.iter + 1 := by
      rw [(advance_counted step).1, (s.reported_checked c).1]
    rw [counted] at order
    refine ⟨⟨(s.reported c).info c, false⟩ :: told, ?_, .cons (numbered s) rfl order⟩
    rw [later, noted answer, List.append_assoc]
    rfl

/-- The iterations of a course stay within the budget, and it is blamed only when they have used it
up. -/
theorem Course.budget {o o' : ω} (course : Course c obs left s o reports ending last o') :
    s.iter + left = s.termination.maxIter + 1 → s.iter ≤ s.termination.maxIter →
      last.iter ≤ s.termination.maxIter ∧
        (endingStatus ending = .maxIterExceeded → last.iter = s.termination.maxIter) := by
  induction course with
  | spent s o =>
    intro budget early
    omega
  | @decided left s o status verdict =>
    intro budget early
    refine ⟨early, ?_⟩
    rintro rfl
    obtain ⟨⟨⟩, -⟩ | ⟨-, spent⟩ | ⟨⟨⟩⟩ | ⟨⟨⟩⟩ := Termination.check_cases verdict
    exact Nat.le_antisymm early spent
  | @stopped left s o o' undecided answer =>
    intro budget early
    exact ⟨(s.reported_checked c).1.trans_le early, nofun⟩
  | @failed left s s' o o' f undecided answer step =>
    intro budget early
    refine ⟨(iter_of_failed step).trans_le ((s.reported_checked c).1.trans_le early), ?_⟩
    cases f <;> nofun
  | @stepped left s s' last o o' o'' reports ending undecided answer step rest ih =>
    intro budget early
    have unspent := Termination.lt_maxIter_of_check undecided
    obtain ⟨iter, -, tests⟩ := s.reported_checked c
    obtain ⟨counted, carried⟩ := advance_counted step
    have kept : s'.termination.maxIter = s.termination.maxIter := by
      obtain ⟨count, checked⟩ := s.termination.check_state [s.resid.nlpOverall] s.iter
      rw [carried, tests, State.checked, checked]
    obtain ⟨within, blamed⟩ := ih (by omega) (by omega)
    rw [kept] at within blamed
    exact ⟨within, blamed⟩

/-- Every ending is that of a run that is over, and of no other method. -/
theorem Course.over {o o' : ω} (course : Course c obs left s o reports ending last o') :
    endingStatus ending ≠ .pending ∧ endingStatus ending ≠ .solveNotCalled ∧
      endingStatus ending ≠ .innerSolveFailed := by
  induction course with
  | spent | stopped => exact ⟨nofun, nofun, nofun⟩
  | @decided left s o status verdict =>
    obtain ⟨rfl, -⟩ | ⟨rfl, -⟩ | rfl | rfl := Termination.check_cases verdict <;>
      exact ⟨nofun, nofun, nofun⟩
  | @failed left s s' o o' f undecided answer step =>
    cases f <;> exact ⟨nofun, nofun, nofun⟩
  | stepped undecided answer step rest ih => exact ih

/-- A run that has started does not end for want of a start. -/
theorem Course.status_ne_incompleteInit {o o' : ω}
    (course : Course c obs left s o reports ending last o') :
    endingStatus ending ≠ .incompleteInit := by
  induction course with
  | spent | stopped => nofun
  | @decided left s o status verdict =>
    obtain ⟨rfl, -⟩ | ⟨rfl, -⟩ | rfl | rfl := Termination.check_cases verdict <;> nofun
  | failed undecided answer step => exact statusOf_advance_error step
  | stepped undecided answer step rest ih => exact ih

/-- A start is refused where the problem gives no point or one that is not finite. -/
theorem startingProcedure_refused {f : Failure α} {s s' : State α σ d}
    (refused : (startingProcedure c).outcome s = (.error f, s'))
    (status : startStatus f = .incompleteInit) :
    (c.problem.start.run s.world.problem).1.ok = false ∨
      allFinite ((c.problem.start.run s.world.problem).1.onto (Vector.replicate _ 0)).toList =
        false := by
  simp only [startingProcedure, Step.outcome_bind_error, Step.outcome_modify_bind,
    Step.outcome_modify, Prod.mk.injEq, reduceCtorEq, false_and, and_false, exists_false,
    or_false] at refused
  obtain asked | ⟨x0, s₁, -, failed⟩ := refused
  · by_contra given
    rw [not_or, Bool.not_eq_false, Bool.not_eq_false] at given
    rw [outcome_askStart] at asked
    simp only [given.1, given.2, Bool.not_true, Bool.false_eq_true, if_false, Prod.mk.injEq,
      reduceCtorEq, false_and] at asked
  · obtain ⟨q, e, w, -, rfl, -⟩ := evaluating_error failed
    cases status

/-- A start counts no iteration, whether it succeeds or fails. -/
theorem startingProcedure_iter (c : Setup α σ d) (n : Nat) :
    Step.Keeps (fun s : State α σ d => s.iter = n) (startingProcedure c) := by
  have asked : Step.Keeps (fun s : State α σ d => s.iter = n) (askStart c) :=
    .of_state fun _ => id
  unfold startingProcedure
  refine .bind asked fun x0 => .bind (.modify fun _ => id) fun _ =>
    .bind (.of_state fun _ => id) fun _ => .modify ?_
  intro s same
  obtain ⟨w, settled⟩ := settleStart_eq s c
  rw [settled, ← same]
  rfl

namespace Engine

variable {e : Engine α σ d}

/-- What a run tells its observer: the iterations, numbered from zero, and at last the result. Only
at the last iteration the observer may have asked for a stop. -/
theorem run_notices (e : Engine α σ d) (obs : Observer α d ω) (o : ω) :
    ∃ told : List (Telling α),
      (e.run obs.noting (o, [])).2.2.2 =
        told.map Telling.notice ++ [.solution (e.run obs.noting (o, [])).1] ∧
      ToldInOrder 0 ((e.run obs.noting (o, [])).1.status = .userStopped) told := by
  rcases started : (startingProcedure e.setup).outcome e.opened with ⟨cause | _, first⟩
  · obtain ⟨result, -, observer⟩ := run_of_failed_start obs.noting (o, []) started
    refine ⟨[], ?_, .nil ?_⟩
    · rw [observer]
      rfl
    · rw [result]
      change startStatus cause ≠ _
      cases cause <;> nofun
  · obtain ⟨reports, ending, last, follows⟩ := e.run_follows obs.noting (o, []) started
    obtain ⟨o', course⟩ := follows.course
    obtain ⟨told, noted, order⟩ := course.told
    have zero : (first.headed e.setup).iter = 0 := by
      obtain ⟨w, headed⟩ := first.headed_eq e.setup
      exact headed ▸ (iter_of_start started :)
    rw [zero, ← follows.status_eq] at order
    refine ⟨told, ?_, order⟩
    rw [follows.observer, ← course.observer]
    change o'.2 ++ [_] = _
    rw [noted]
    rfl

/-- A run stays within its budget of iterations, and blames it only when it is used up. -/
theorem run_budget (e : Engine α σ d) (obs : Observer α d ω) (o : ω) :
    (e.run obs o).1.info.iters ≤ e.setup.settings.maxIter ∧
      ((e.run obs o).1.status = .maxIterExceeded →
        (e.run obs o).1.info.iters = e.setup.settings.maxIter) := by
  rcases started : (startingProcedure e.setup).outcome e.opened with ⟨cause | _, first⟩
  · obtain ⟨result, -⟩ := run_of_failed_start obs o started
    have zero : first.iter = 0 := by
      obtain ⟨w, opened⟩ := e.opened_eq
      exact (startingProcedure_iter e.setup 0).error (opened ▸ rfl) started
    rw [result]
    change first.iter ≤ _ ∧ (startStatus cause = _ → first.iter = _)
    rw [zero]
    refine ⟨Nat.zero_le _, ?_⟩
    cases cause <;> nofun
  · obtain ⟨reports, ending, last, follows⟩ := e.run_follows obs o started
    obtain ⟨o', course⟩ := follows.course
    obtain ⟨w, headed⟩ := first.headed_eq e.setup
    have zero : (first.headed e.setup).iter = 0 := headed ▸ (iter_of_start started :)
    have limit : (first.headed e.setup).termination.maxIter = e.setup.settings.maxIter := by
      rw [headed]
      exact congrArg Termination.maxIter (termination_of_start started)
    have within := course.budget (by omega) (by omega)
    rw [limit] at within
    rw [follows.result]
    exact within

/-- A run ends for want of a start where the problem gives no point or one that is not finite. -/
theorem start_of_incompleteInit {obs : Observer α d ω} {o : ω}
    (status : (e.run obs o).1.status = .incompleteInit) :
    let reply := (e.setup.problem.start.run e.state.world.problem).1
    reply.ok = false ∨ allFinite (reply.onto (Vector.replicate _ 0)).toList = false := by
  have memory : e.opened.world.problem = e.state.world.problem :=
    State.recordFrom_problem _ e.setup 1 _
  rcases started : (startingProcedure e.setup).outcome e.opened with ⟨cause | _, first⟩
  · rw [(run_of_failed_start obs o started).1] at status
    have refused := startingProcedure_refused started status
    rw [memory] at refused
    exact refused
  · obtain ⟨reports, ending, last, follows⟩ := e.run_follows obs o started
    obtain ⟨o', course⟩ := follows.course
    rw [follows.status_eq] at status
    exact absurd status course.status_ne_incompleteInit

/-- A run ends with a status of a run that is over, and of no other method. -/
theorem run_over (e : Engine α σ d) (obs : Observer α d ω) (o : ω) :
    (e.run obs o).1.status ≠ .pending ∧ (e.run obs o).1.status ≠ .solveNotCalled ∧
      (e.run obs o).1.status ≠ .innerSolveFailed := by
  rcases started : (startingProcedure e.setup).outcome e.opened with ⟨cause | _, first⟩
  · rw [(run_of_failed_start obs o started).1]
    change startStatus cause ≠ _ ∧ startStatus cause ≠ _ ∧ startStatus cause ≠ _
    cases cause <;> exact ⟨nofun, nofun, nofun⟩
  · obtain ⟨reports, ending, last, follows⟩ := e.run_follows obs o started
    obtain ⟨o', course⟩ := follows.course
    rw [follows.status_eq]
    exact course.over

end Engine

omit [Scalar α] [DenseSolver α] in
/-- What a run leaves, in terms of its own answers. -/
theorem State.Concluded.answers {log : List Answer} {status : Status}
    {s : State α (σ × Watch α d) d} (concluded : s.Concluded log status) :
    ∃ answers, s.watch.answers = log ++ answers ∧ (∀ a ∈ answers.dropLast, a.good = true) ∧
      (status = .errorInEvaluation ↔ ∃ a, answers.getLast? = some a ∧ a.good = false) := by
  obtain ⟨-, told⟩ := concluded
  split at told
  · rename_i failed
    obtain ⟨answers, a, noted, good, bad⟩ := told
    refine ⟨answers ++ [a], noted, ?_, ?_⟩
    · rw [List.dropLast_concat]
      exact good
    · exact iff_of_true failed ⟨a, List.getLast?_concat, bad⟩
  · rename_i regular
    obtain ⟨answers, noted, good⟩ := told
    refine ⟨answers, noted, fun a member => good a (List.mem_of_mem_dropLast member), ?_⟩
    refine iff_of_false regular ?_
    rintro ⟨a, last, bad⟩
    rw [good a (List.mem_of_getLast? last)] at bad
    cases bad

end Barrier

open Barrier

/-- Every run of an interior point engine keeps the protocol, however the callbacks fail and
whatever the observer does.

The observer is told the iterations `0, 1, …` and then, once, the result. It is told none after one
at which it asked for a stop, and the status says that it stopped the run if and only if it asked at
the last. No more iterations are completed than allowed, and all of them when the status blames
that. No evaluation is made after one that failed or left a value that is not finite where the
engine keeps it, and the status says so if and only if the last evaluation was such. -/
theorem run_keeps_protocol {α σ ω : Type} [Scalar α] [DenseSolver α] {d : Dims}
    {p : Problem α σ d} {settings : InteriorSettings α} {w w' : World α (σ × Watch α d)}
    {e₀ e : Engine α (σ × Watch α d) d} (fresh : w.problem.2 = .fresh)
    (created : (Engine.create p.watched settings).outcome w = (.ok e₀, w')) (runs : e₀.Reaches e)
    (obs : Observer α d ω) (o : ω) :
    let ran := e.run obs.noting (o, [])
    let res := ran.1
    (∃ told : List (Telling α),
      ran.2.2.2 = told.map Telling.notice ++ [.solution res] ∧
        told.map (·.info.iter) = List.range told.length ∧
        (∀ t ∈ told.dropLast, t.stop = false) ∧
        (res.status = .userStopped ↔ ∃ t, told.getLast? = some t ∧ t.stop = true)) ∧
      res.info.iters ≤ settings.maxIter ∧
      (res.status = .maxIterExceeded → res.info.iters = settings.maxIter) ∧
      (∃ answers, ran.2.1.state.watch.answers = e.state.watch.answers ++ answers ∧
        (∀ a ∈ answers.dropLast, a.good = true) ∧
        (res.status = .errorInEvaluation ↔
          ∃ a, answers.getLast? = some a ∧ a.good = false)) ∧
      e.state.Copied ∧ ran.2.1.state.Copied ∧
      res.status ≠ .pending ∧ res.status ≠ .solveNotCalled ∧ res.status ≠ .innerSolveFailed := by
  intro ran res
  obtain ⟨watched, copied⟩ := Engine.create_watched fresh created
  have setup := runs.setup_eq
  have copied' := runs.copied watched copied
  have concluded := Engine.run_watched (setup ▸ watched) copied' obs.noting (o, [])
  obtain ⟨told, noted, order⟩ := e.run_notices obs o
  have limit : e.setup.settings = settings := by
    obtain ⟨-, b, exact, inner, -, -, rfl⟩ := Engine.create_parts created
    rw [setup]
  obtain ⟨within, spent⟩ := e.run_budget obs.noting (o, [])
  rw [limit] at within spent
  refine ⟨⟨told, noted, ?_, order.unstopped, order.last⟩, within, spent, concluded.answers, copied',
    concluded.1, e.run_over obs.noting (o, [])⟩
  rw [order.numbered, List.range_eq_range']

open scoped Linear.Exact in
/-- A problem whose functions are known up to zero only, and an observer that stops at once. -/
theorem edge_keeps_protocol : ∃ e w',
    (Engine.create Edge.problem.watched .default).outcome ⟨((), .fresh), []⟩ = (.ok e, w') ∧
      (∃ told : List (Telling ℝ), (e.run stopping.noting ((), [])).2.2.2 =
          told.map Telling.notice ++ [.solution (e.run stopping.noting ((), [])).1] ∧
        told.map (·.info.iter) = List.range told.length) ∧
      (e.run stopping.noting ((), [])).1.status ≠ .pending := by
  have queried : (Bounds.ofProblem Edge.problem.watched (.ofSettings .default)).run
      ((), .fresh) = (.ok Edge.bounds, ((), .fresh)) := by
    rw [← Edge.bounds_of_raw (.ofSettings .default)]
    rfl
  obtain ⟨w', created⟩ := Engine.create_of_bounds
    (w := (⟨((), .fresh), []⟩ : World ℝ (Unit × Watch ℝ Ray.line))) rfl queried rfl
  obtain ⟨⟨told, noted, numbered, -⟩, -, -, -, -, -, ended, -⟩ :=
    run_keeps_protocol rfl created .refl stopping ()
  exact ⟨_, w', created, ⟨told, noted, numbered⟩, ended⟩

end SmoothOpt
