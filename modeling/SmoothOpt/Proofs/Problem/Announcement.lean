import SmoothOpt.Problem.Bounds
import SmoothOpt.Problem.Trace
import SmoothOpt.Proofs.Problem.Answer

/-!
The promise behind the flag of an evaluation.

A callback that is told that its point is not new may answer from what it computed before. So the
calls a solver makes have to announce every change of the point: this is `Announced`, a property of
the list of calls. To carry it through a solver, a problem is *tracked* by two properties of its
memory: that all calls so far were announced, and that moreover the last of them was at a given
point. Solvers are reasoned about with the tracking alone, so that a problem built from another one
can be tracked in its own way.
-/
namespace SmoothOpt

open Scalar Linear

section Calls

variable {α : Type} {n : Nat}

/-- Calls, oldest first, that announce their points: the first call does, every objective does, and
a call that does not is at the point of the call right before it. -/
structure Announced (calls : List (Call α n)) : Prop where
  first : ∀ call, calls[0]? = some call → call.newX = true
  objective : ∀ call ∈ calls, call.what = .objective → call.newX = true
  repeated : ∀ i before call, calls[i]? = some before → calls[i + 1]? = some call →
    call.newX = false → call.x = before.x

namespace Announced

variable {calls : List (Call α n)} {call : Call α n}

theorem nil : Announced ([] : List (Call α n)) := by
  constructor <;> simp

/-- One more call, at a new point or at the point of the last call. -/
theorem concat (h : Announced calls) (allowed : call.newX = true ∨
      call.what ≠ .objective ∧ ∃ before, calls.getLast? = some before ∧ call.x = before.x) :
    Announced (calls ++ [call]) := by
  constructor
  · intro c here
    cases calls with
    | nil =>
      obtain new | ⟨-, before, last, -⟩ := allowed
      · simp only [List.nil_append, List.getElem?_cons_zero, Option.some.injEq] at here
        exact here ▸ new
      · cases last
    | cons c₀ rest => exact h.first c here
  · intro c member objective
    obtain earlier | rfl := List.mem_append.mp member |>.imp_right List.mem_singleton.mp
    · exact h.objective c earlier objective
    · exact allowed.resolve_right fun other => other.1 objective
  · intro i before c here next old
    by_cases inner : i + 1 < calls.length
    · rw [List.getElem?_append_left (by omega)] at here
      rw [List.getElem?_append_left inner] at next
      exact h.repeated i before c here next old
    · -- the second of the two is the new call, so the first is the last one before it
      have last : i + 1 = calls.length := by
        have bound := (List.getElem?_eq_some_iff.mp next).1
        rw [List.length_append, List.length_singleton] at bound
        omega
      rw [last, List.getElem?_concat_length, Option.some.injEq] at next
      subst next
      obtain new | ⟨-, before', same, x⟩ := allowed
      · rw [new] at old
        cases old
      · rw [List.getElem?_append_left (by omega), show i = calls.length - 1 by omega,
          ← List.getLast?_eq_getElem?, same, Option.some.injEq] at here
        rw [x, here]

end Announced

end Calls

variable {α σ : Type} {d : Dims}

/-- The memory of a problem is tracked: `Fine` and the stronger `At x` hold of memories after calls
in order, the last one at `x`. An announced call may be made in every fine memory and leads to its
point; any other call is made at the point and stays there. -/
structure Problem.Tracked (p : Problem α σ d) (Fine : σ → Prop) (At : Vector α d.n → σ → Prop) :
    Prop where
  fine : ∀ {x w}, At x w → Fine w
  variableBounds : ∀ {w}, Fine w → Fine (p.variableBounds.run w).2
  inequalityBounds : ∀ {w}, Fine w → Fine (p.inequalityBounds.run w).2
  start : ∀ {w}, Fine w → Fine (p.start.run w).2
  objective : ∀ {x w}, Fine w → At x ((p.objective x true).run w).2
  newInequalities : ∀ {x w}, Fine w → At x ((p.inequalities x true).run w).2
  equalities : ∀ {x w}, At x w → At x ((p.equalities x false).run w).2
  inequalities : ∀ {x w}, At x w → At x ((p.inequalities x false).run w).2
  gradient : ∀ {x w}, At x w → At x ((p.gradient x false).run w).2
  equalityJacobian : ∀ {x w}, At x w → At x ((p.equalityJacobian x false).run w).2
  inequalityJacobian : ∀ {x w}, At x w → At x ((p.inequalityJacobian x false).run w).2
  hessian : ∀ {x w weight yc yd}, At x w → At x ((p.hessian x false weight yc yd).run w).2

section Recorded

variable {before : List (Call α d.n)}

def AllAnnounced (before : List (Call α d.n)) (w : σ × List (Call α d.n)) : Prop :=
  ∃ calls, w.2 = calls ++ before ∧ Announced calls.reverse

/-- The calls recorded since `before` are announced, and the last of them was at `x`. -/
def LastAt (before : List (Call α d.n)) (x : Vector α d.n) (w : σ × List (Call α d.n)) : Prop :=
  ∃ last calls, w.2 = last :: calls ++ before ∧ Announced (last :: calls).reverse ∧ last.x = x

theorem LastAt.allAnnounced {x : Vector α d.n} {w : σ × List (Call α d.n)}
    (h : LastAt before x w) : AllAnnounced before w := by
  obtain ⟨last, calls, recorded, announced, -⟩ := h
  exact ⟨last :: calls, recorded, announced⟩

variable {β : Type} {what : Quantity} {x : Vector α d.n} {m : StateM σ β}
  {w : σ × List (Call α d.n)}

theorem noted_new (h : AllAnnounced before w) :
    LastAt before x ((Problem.noted (d := d) what x true m).run w).2 := by
  obtain ⟨calls, recorded, announced⟩ := h
  refine ⟨⟨what, x, true⟩, calls, congrArg (List.cons _) recorded, ?_, rfl⟩
  rw [List.reverse_cons]
  exact announced.concat (.inl rfl)

theorem noted_old (other : what ≠ .objective) (h : LastAt before x w) :
    LastAt before x ((Problem.noted (d := d) what x false m).run w).2 := by
  obtain ⟨last, calls, recorded, announced, here⟩ := h
  refine ⟨⟨what, x, false⟩, last :: calls, congrArg (List.cons _) recorded, ?_, rfl⟩
  rw [List.reverse_cons]
  refine announced.concat (.inr ⟨other, last, ?_, here.symm⟩)
  rw [List.getLast?_reverse, List.head?_cons]

/-- A recorded problem is tracked by its record. -/
theorem Problem.recorded_tracked (p : Problem α σ d) (before : List (Call α d.n)) :
    p.recorded.Tracked (AllAnnounced before) (LastAt before) where
  fine h := h.allAnnounced
  variableBounds h := h
  inequalityBounds h := h
  start h := h
  objective h := noted_new h
  newInequalities h := noted_new h
  equalities h := noted_old (by decide) h
  inequalities h := noted_old (by decide) h
  gradient h := noted_old (by decide) h
  equalityJacobian h := noted_old (by decide) h
  inequalityJacobian h := noted_old (by decide) h
  hessian h := noted_old (by decide) h

end Recorded

section Tracked

variable [Scalar α] {p : Problem α σ d} {Fine : σ → Prop} {At : Vector α d.n → σ → Prop}

/-- The values of a new point are asked at that point. -/
theorem Problem.Tracked.funcs (tracked : p.Tracked Fine At) (x : Vector α d.n) :
    Step.Ensures (fun t => Fine t.2) (Evaluation.funcs p x) (fun _ t => At x t.2)
      fun t => Fine t.2 := by
  have objective : Step.Ensures (fun t : Evaluation α d × σ => Fine t.2)
      (Evaluation.ask .objective (p.objective x true) (·.f) (fun v e => { e with f := v }) isFinite)
      (fun _ t => At x t.2) fun t => At x t.2 :=
    Evaluation.ask_ensures fun _ _ h => tracked.objective h
  have rest : Step.Keeps (fun t => At x t.2) (do
      Evaluation.ask .equalities (p.equalities x false) (·.eq) (fun v e => { e with eq := v })
        fun v => allFinite v.toList
      Evaluation.ask .inequalities (p.inequalities x false) (·.ineq)
        (fun v e => { e with ineq := v }) fun v => allFinite v.toList) :=
    .bind (Evaluation.ask_ensures fun _ _ h => tracked.equalities h) fun _ =>
      Evaluation.ask_ensures fun _ _ h => tracked.inequalities h
  exact (objective.bind fun _ => rest).weaken (fun _ => id) (fun _ _ => id) fun _ => tracked.fine

/-- The derivatives are asked at the point of the last call. -/
theorem Problem.Tracked.derivs (tracked : p.Tracked Fine At) (x : Vector α d.n) :
    Step.Keeps (fun t => At x t.2) (Evaluation.derivs p x) := by
  unfold Evaluation.derivs
  exact .bind (Evaluation.ask_ensures fun _ _ h => tracked.gradient h) fun _ =>
    .bind (.modify fun _ => id) fun _ =>
      .bind (Evaluation.ask_ensures fun _ _ h => tracked.equalityJacobian h) fun _ =>
        Evaluation.ask_ensures fun _ _ h => tracked.inequalityJacobian h

theorem Problem.Tracked.all (tracked : p.Tracked Fine At) (x : Vector α d.n) :
    Step.Ensures (fun t => Fine t.2) (Evaluation.all p x) (fun _ t => At x t.2)
      fun t => Fine t.2 :=
  (tracked.funcs x).bind fun _ =>
    Step.Ensures.weaken (tracked.derivs x) (fun _ => id) (fun _ _ => id) fun _ => tracked.fine

/-- Querying the bounds is no evaluation. -/
theorem Problem.Tracked.bounds (tracked : p.Tracked Fine At) (rule : Bounds.FixedRule α) {w : σ}
    (h : Fine w) : Fine ((Bounds.ofProblem p rule).run w).2 := by
  have first := tracked.variableBounds h
  have second := tracked.inequalityBounds first
  simp only [Bounds.ofProblem, run_bind]
  split
  · exact first
  · simp only [run_bind]
    split
    · exact second
    · exact second

end Tracked

end SmoothOpt
