import SmoothOpt.Problem.Evaluation
import SmoothOpt.Proofs.Step

/-!
What an evaluation holds after its callbacks were asked.

A callback with a private state may answer differently at different times, so an evaluation is not
compared with functions of the point. It is said to hold *answers*: for each quantity some call at
this very point succeeded and left the value that is stored.
-/
namespace SmoothOpt

open Scalar Linear

/-- A call succeeded and left `v` in a place that held `old`. -/
def AnsweredOver {σ β : Type} (old : β) (call : StateM σ (Reply β)) (v : β) : Prop :=
  ∃ w, (call.run w).1.ok = true ∧ (call.run w).1.onto old = v

/-- A call succeeded and left `v`. -/
def Answered {σ β : Type} (call : StateM σ (Reply β)) (v : β) : Prop :=
  ∃ old, AnsweredOver old call v

/-- A callback without memory that writes has one answer. -/
theorem Answered.eq_of_written {σ β : Type} {r : Reply β} {v u : β} (written : r.value = some v)
    (h : Answered (pure r : StateM σ (Reply β)) u) : u = v := by
  obtain ⟨old, w, _, left⟩ := h
  rw [← left]
  change r.value.getD old = v
  rw [written, Option.getD_some]

/-- A value or constraint body; the other quantities at a point are derivatives. -/
def Quantity.isValue : Quantity → Bool
  | .objective | .equalities | .inequalities => true
  | _ => false

def Quantity.isDerivative : Quantity → Bool
  | .gradient | .equalityJacobian | .inequalityJacobian => true
  | _ => false

namespace Evaluation

variable {α σ : Type} {d : Dims}

structure ValuesAt (p : Problem α σ d) (x : Vector α d.n) (e : Evaluation α d) : Prop where
  f : Answered (p.objective x true) e.f
  eq : Answered (p.equalities x false) e.eq
  ineq : Answered (p.inequalities x false) e.ineq

/-- Everything is an answer at `x`. Jacobians are written over zero matrices. -/
structure AnswersAt [Scalar α] (p : Problem α σ d) (x : Vector α d.n) (e : Evaluation α d) : Prop
    extends ValuesAt p x e where
  grad : Answered (p.gradient x false) e.grad
  jacEq : AnsweredOver Dense.zeros (p.equalityJacobian x false) e.jacEq
  jacIneq : AnsweredOver Dense.zeros (p.inequalityJacobian x false) e.jacIneq

structure SameValues (e e' : Evaluation α d) : Prop where
  f : e'.f = e.f
  eq : e'.eq = e.eq
  ineq : e'.ineq = e.ineq

section Ask

variable {β : Type} {what : Quantity} {call : StateM σ (Reply β)} {read : Evaluation α d → β}
  {store : β → Evaluation α d → Evaluation α d} {finite : β → Bool}

theorem outcome_ask (t : Evaluation α d × σ) :
    (ask what call read store finite).outcome t =
      (if (call.run t.2).1.ok && finite ((call.run t.2).1.onto (read t.1)) then .ok ()
        else .error what,
       (store ((call.run t.2).1.onto (read t.1)) t.1, (call.run t.2).2)) := rfl

theorem ask_ok {t t' : Evaluation α d × σ}
    (h : (ask what call read store finite).outcome t = (.ok (), t')) :
    ∃ v, AnsweredOver (read t.1) call v ∧ finite v = true ∧ t'.1 = store v t.1 := by
  rw [outcome_ask, Prod.mk.injEq] at h
  obtain ⟨verdict, rfl⟩ := h
  split at verdict
  · rename_i good
    simp only [Bool.and_eq_true] at good
    exact ⟨_, ⟨t.2, good.1, rfl⟩, good.2, rfl⟩
  · cases verdict

theorem ask_error {t t' : Evaluation α d × σ} {q : Quantity}
    (h : (ask what call read store finite).outcome t = (.error q, t')) : q = what := by
  rw [outcome_ask, Prod.mk.injEq] at h
  obtain ⟨verdict, -⟩ := h
  split at verdict
  · cases verdict
  · simpa using verdict.symm

/-- What holds after every value that may be stored holds after the call. -/
theorem ask_ensures {P : Evaluation α d × σ → Prop} {R : Evaluation α d × σ → Prop}
    (stored : ∀ t v, P t → R (store v t.1, (call.run t.2).2)) :
    Step.Ensures P (ask what call read store finite) (fun _ => R) R := by
  intro t holds
  have left := stored t ((call.run t.2).1.onto (read t.1)) holds
  rw [outcome_ask]
  split
  · rename_i same
    obtain ⟨-, rfl⟩ := Prod.mk.inj same
    exact left
  · rename_i same
    obtain ⟨-, rfl⟩ := Prod.mk.inj same
    exact left

end Ask

variable [Scalar α]

theorem funcs_ok {p : Problem α σ d} {x : Vector α d.n} {t t' : Evaluation α d × σ}
    (h : (funcs p x).outcome t = (.ok (), t')) : t'.1.ValuesAt p x := by
  simp only [funcs, Step.outcome_bind_ok] at h
  obtain ⟨_, t₁, first, _, t₂, second, third⟩ := h
  obtain ⟨f, objective, -, stored₁⟩ := ask_ok first
  obtain ⟨eq, equalities, -, stored₂⟩ := ask_ok second
  obtain ⟨ineq, inequalities, -, stored₃⟩ := ask_ok third
  rw [stored₃, stored₂, stored₁]
  exact ⟨⟨_, objective⟩, ⟨_, equalities⟩, ⟨_, inequalities⟩⟩

theorem funcs_error {p : Problem α σ d} {x : Vector α d.n} {t t' : Evaluation α d × σ}
    {q : Quantity} (h : (funcs p x).outcome t = (.error q, t')) : q.isValue = true := by
  simp only [funcs, Step.outcome_bind_error] at h
  obtain first | ⟨_, _, -, second | ⟨_, _, -, third⟩⟩ := h
  · rw [ask_error first]
    rfl
  · rw [ask_error second]
    rfl
  · rw [ask_error third]
    rfl

/-- The derivatives complete the values of the same point. -/
theorem derivs_ok {p : Problem α σ d} {x : Vector α d.n} {t t' : Evaluation α d × σ}
    (values : t.1.ValuesAt p x) (h : (derivs p x).outcome t = (.ok (), t')) :
    t'.1.AnswersAt p x := by
  simp only [derivs, Step.outcome_bind_ok, Step.outcome_modify_bind] at h
  obtain ⟨_, t₁, first, _, t₂, second, third⟩ := h
  obtain ⟨grad, gradient, -, stored₁⟩ := ask_ok first
  obtain ⟨jacEq, equalities, -, stored₂⟩ := ask_ok second
  obtain ⟨jacIneq, inequalities, -, stored₃⟩ := ask_ok third
  rw [stored₂] at inequalities stored₃
  rw [stored₁] at stored₃
  rw [stored₃]
  exact ⟨⟨values.f, values.eq, values.ineq⟩, ⟨_, gradient⟩, equalities, inequalities⟩

theorem derivs_error {p : Problem α σ d} {x : Vector α d.n} {t t' : Evaluation α d × σ}
    {q : Quantity} (h : (derivs p x).outcome t = (.error q, t')) : q.isDerivative = true := by
  simp only [derivs, Step.outcome_bind_error, Step.outcome_modify_bind] at h
  obtain first | ⟨_, _, -, second | ⟨_, _, -, third⟩⟩ := h
  · rw [ask_error first]
    rfl
  · rw [ask_error second]
    rfl
  · rw [ask_error third]
    rfl

/-- Asking for the derivatives keeps the values, whether it succeeds or fails. -/
theorem derivs_sameValues (p : Problem α σ d) (x : Vector α d.n) (e : Evaluation α d) :
    Step.Keeps (fun t => e.SameValues t.1) (derivs p x) := by
  unfold derivs
  refine .bind (ask_ensures ?_) fun _ => .bind (.modify ?_) fun _ =>
    .bind (ask_ensures ?_) fun _ => ask_ensures ?_
  · intro t v same
    exact ⟨same.f, same.eq, same.ineq⟩
  · intro t same
    exact ⟨same.f, same.eq, same.ineq⟩
  · intro t v same
    exact ⟨same.f, same.eq, same.ineq⟩
  · intro t v same
    exact ⟨same.f, same.eq, same.ineq⟩

theorem all_ok {p : Problem α σ d} {x : Vector α d.n} {t t' : Evaluation α d × σ}
    (h : (all p x).outcome t = (.ok (), t')) : t'.1.AnswersAt p x := by
  simp only [all, Step.outcome_bind_ok] at h
  obtain ⟨_, t₁, values, derivatives⟩ := h
  exact derivs_ok (funcs_ok values) derivatives

end Evaluation

end SmoothOpt
