import SmoothOpt.Problem.Fault
import SmoothOpt.Problem.TermSum
import SmoothOpt.Proofs.Problem.Functions

/-!
What deliberate faults do to a problem.

A fault takes a success away or spoils what was written; it never makes a failed call succeed. So
faults that do not spoil leave the functions of a problem as they are, and a point where an
evaluation succeeds is one where no failing fault acts. Callbacks that are missing are at fault
where there are constraints. Sums of terms are functions in this sense.
-/
namespace SmoothOpt

open Scalar Linear

variable {α σ β : Type} [Scalar α] {d : Dims} {faults : List (Fault α)}

namespace Fault

variable {callback : Callback} {x : Option (List α)} {spoil : α → β → β} {r : Reply β}

/-- The fault makes calls fail, where it acts. -/
def Fails (f : Fault α) : Prop := f.spoil = none

/-- The reply after a fault that acts on it. -/
def after (spoil : α → β → β) (r : Reply β) (f : Fault α) : Reply β :=
  match f.spoil with
  | none => { r with ok := false }
  | some v => { r with value := r.value.map (spoil v) }

theorem spoiled_eq_foldl : spoiled faults callback x spoil r =
    (faults.filter fun f => f.callback = callback ∧ f.acts x).foldl (after spoil) r := rfl

omit [Scalar α] in
theorem foldl_after_ok_iff (l : List (Fault α)) :
    (l.foldl (after spoil) r).ok = true ↔ r.ok = true ∧ ∀ f ∈ l, ¬f.Fails := by
  induction l generalizing r with
  | nil => simp
  | cons f l ih =>
    rw [List.foldl_cons, ih, List.forall_mem_cons, after, Fails]
    cases f.spoil <;> simp

/-- A reply succeeds after its faults when it did before and no failing fault acts. -/
theorem spoiled_ok_iff : (spoiled faults callback x spoil r).ok = true ↔
    r.ok = true ∧ ∀ f ∈ faults, f.callback = callback → f.acts x = true → ¬f.Fails := by
  rw [spoiled_eq_foldl, foldl_after_ok_iff]
  simp only [List.mem_filter, decide_eq_true_eq, and_imp]

/-- Faults that do not spoil leave what was written. -/
theorem spoiled_value (mute : ∀ f ∈ faults, f.Fails) :
    (spoiled faults callback x spoil r).value = r.value := by
  rw [spoiled_eq_foldl]
  have acting : ∀ f ∈ faults.filter fun f => f.callback = callback ∧ f.acts x, f.Fails :=
    fun f member => mute f (List.mem_of_mem_filter member)
  generalize faults.filter (fun f => f.callback = callback ∧ f.acts x) = l at acting
  induction l generalizing r with
  | nil => rfl
  | cons f l ih =>
    rw [List.forall_mem_cons, Fails] at acting
    rw [List.foldl_cons, ih acting.2, after, acting.1]

theorem writes_spoiled {call : StateM σ (Reply β)} {v : β} (writes : Writes call v)
    (mute : ∀ f ∈ faults, f.Fails) : Writes (spoiled faults callback x spoil <$> call) v := by
  intro w succeeded
  exact (spoiled_value mute).trans (writes w (spoiled_ok_iff.mp succeeded).1)

theorem not_acts_of_answered {call : StateM σ (Reply β)} {v : β}
    (h : Answered (spoiled faults callback x spoil <$> call) v) :
    ∀ f ∈ faults, f.callback = callback → f.Fails → f.acts x = false := by
  obtain ⟨old, w, succeeded, -⟩ := h
  intro f member same fails
  rw [← Bool.not_eq_true]
  exact fun acts => (spoiled_ok_iff.mp succeeded).2 f member same acts fails

end Fault

variable {p : Problem α σ d} {F : Functions α d} {x : Vector α d.n}

theorem Problem.Computes.faulty (computes : p.Computes F) (mute : ∀ f ∈ faults, f.Fails) :
    (p.faulty faults).Computes F where
  objective x newX := Fault.writes_spoiled (computes.objective x newX) mute
  equalities x newX := Fault.writes_spoiled (computes.equalities x newX) mute
  inequalities x newX := Fault.writes_spoiled (computes.inequalities x newX) mute
  gradient x newX := Fault.writes_spoiled (computes.gradient x newX) mute
  equalityJacobian x newX := Fault.writes_spoiled (computes.equalityJacobian x newX) mute
  inequalityJacobian x newX := Fault.writes_spoiled (computes.inequalityJacobian x newX) mute

/-- Where an evaluation succeeds, no failing fault of a function or a derivative acts. -/
theorem Evaluation.AnswersAt.not_acts {e : Evaluation α d} (h : e.AnswersAt (p.faulty faults) x)
    {f : Fault α} (member : f ∈ faults) (fails : f.Fails) {q : Quantity}
    (same : f.callback = .evaluation q) (evaluated : q.isValue = true ∨ q.isDerivative = true) :
    f.acts (some x.toList) = false := by
  cases q with
  | objective => exact Fault.not_acts_of_answered h.f f member same fails
  | gradient => exact Fault.not_acts_of_answered h.grad f member same fails
  | equalities => exact Fault.not_acts_of_answered h.eq f member same fails
  | inequalities => exact Fault.not_acts_of_answered h.ineq f member same fails
  | equalityJacobian => exact Fault.not_acts_of_answered ⟨_, h.jacEq⟩ f member same fails
  | inequalityJacobian => exact Fault.not_acts_of_answered ⟨_, h.jacIneq⟩ f member same fails
  | hessian => obtain evaluated | evaluated := evaluated <;> cases evaluated
  | residuals => obtain evaluated | evaluated := evaluated <;> cases evaluated

omit [Scalar α] in
/-- Callbacks that are missing answer only where there is nothing to write. -/
theorem Evaluation.ValuesAt.no_constraints {e : Evaluation α d}
    (h : e.ValuesAt p.unconstrained x) : d.mEq = 0 ∧ d.mIneq = 0 := by
  obtain ⟨_, _, equalities, -⟩ := h.eq
  obtain ⟨_, _, inequalities, -⟩ := h.ineq
  exact ⟨beq_iff_eq.mp equalities, beq_iff_eq.mp inequalities⟩

/-- The functions of a problem made of term sums. -/
def TermProblem.functions (t : TermProblem d) : Functions Float d where
  objective := t.f.value
  equalities x := t.eq.map (·.value x)
  inequalities x := t.ineq.map (·.value x)
  gradient := t.f.gradient
  equalityJacobian x := t.eq.map (·.gradient x)
  inequalityJacobian x := t.ineq.map (·.gradient x)

theorem TermProblem.computes (t : TermProblem d) : t.problem.Computes t.functions := by
  constructor <;> intro x newX w _ <;> rfl

end SmoothOpt
