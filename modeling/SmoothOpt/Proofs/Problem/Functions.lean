import SmoothOpt.Proofs.Linear.Entries
import SmoothOpt.Proofs.Problem.Answer

/-!
Problems whose callbacks compute functions of the point.

Such callbacks may fail and may have a memory, but what they write when they succeed depends on the
point only. So the answers an evaluation holds are the values of these functions. In exact
arithmetic every value is finite, and an evaluation succeeds when its callbacks do.
-/
namespace SmoothOpt

open Scalar Linear

structure Functions (α : Type) (d : Dims) where
  objective : Vector α d.n → α
  equalities : Vector α d.n → Vector α d.mEq
  inequalities : Vector α d.n → Vector α d.mIneq
  gradient : Vector α d.n → Vector α d.n
  equalityJacobian : Vector α d.n → Dense α d.mEq d.n
  inequalityJacobian : Vector α d.n → Dense α d.mIneq d.n

variable {α σ β : Type} {d : Dims}

def Functions.evaluation (F : Functions α d) (x : Vector α d.n) : Evaluation α d where
  f := F.objective x
  eq := F.equalities x
  ineq := F.inequalities x
  grad := F.gradient x
  jacEq := F.equalityJacobian x
  jacIneq := F.inequalityJacobian x

/-- A call that writes `v` whenever it succeeds, at whatever time it is made. -/
def Writes (call : StateM σ (Reply β)) (v : β) : Prop :=
  ∀ w, (call.run w).1.ok = true → (call.run w).1.value = some v

theorem AnsweredOver.eq_of_writes {call : StateM σ (Reply β)} {old v u : β} (writes : Writes call v)
    (h : AnsweredOver old call u) : u = v := by
  obtain ⟨w, succeeded, rfl⟩ := h
  rw [Reply.onto, writes w succeeded, Option.getD_some]

theorem Answered.eq_of_writes {call : StateM σ (Reply β)} {v u : β} (writes : Writes call v)
    (h : Answered call u) : u = v := by
  obtain ⟨old, answered⟩ := h
  exact answered.eq_of_writes writes

/-- The evaluation callbacks compute the functions `F`: they may fail, but when they succeed they
write all of their output, and it depends on the point only. -/
structure Problem.Computes (p : Problem α σ d) (F : Functions α d) : Prop where
  objective : ∀ x newX, Writes (p.objective x newX) (F.objective x)
  equalities : ∀ x newX, Writes (p.equalities x newX) (F.equalities x)
  inequalities : ∀ x newX, Writes (p.inequalities x newX) (F.inequalities x)
  gradient : ∀ x newX, Writes (p.gradient x newX) (F.gradient x)
  equalityJacobian : ∀ x newX, Writes (p.equalityJacobian x newX) (F.equalityJacobian x)
  inequalityJacobian : ∀ x newX, Writes (p.inequalityJacobian x newX) (F.inequalityJacobian x)

/-- Every evaluation callback succeeds at `x`, at whatever time it is asked. -/
structure Problem.SucceedsAt (p : Problem α σ d) (x : Vector α d.n) : Prop where
  objective : ∀ newX w, ((p.objective x newX).run w).1.ok = true
  equalities : ∀ newX w, ((p.equalities x newX).run w).1.ok = true
  inequalities : ∀ newX w, ((p.inequalities x newX).run w).1.ok = true
  gradient : ∀ newX w, ((p.gradient x newX).run w).1.ok = true
  equalityJacobian : ∀ newX w, ((p.equalityJacobian x newX).run w).1.ok = true
  inequalityJacobian : ∀ newX w, ((p.inequalityJacobian x newX).run w).1.ok = true

variable [Scalar α] {F : Functions α d}

theorem Evaluation.AnswersAt.eq_evaluation {p : Problem α σ d} {x : Vector α d.n}
    {e : Evaluation α d} (computes : p.Computes F) (h : e.AnswersAt p x) : e = F.evaluation x := by
  have f := h.f.eq_of_writes (computes.objective x true)
  have eq := h.eq.eq_of_writes (computes.equalities x false)
  have ineq := h.ineq.eq_of_writes (computes.inequalities x false)
  have grad := h.grad.eq_of_writes (computes.gradient x false)
  have jacEq := h.jacEq.eq_of_writes (computes.equalityJacobian x false)
  have jacIneq := h.jacIneq.eq_of_writes (computes.inequalityJacobian x false)
  cases e
  simp only [Functions.evaluation, Evaluation.mk.injEq]
  exact ⟨f, eq, ineq, grad, jacEq, jacIneq⟩

namespace Evaluation

variable {p : Problem ℝ σ d} {x : Vector ℝ d.n}

theorem ask_succeeds {β : Type} {what : Quantity} {call : StateM σ (Reply β)}
    {read : Evaluation ℝ d → β} {store : β → Evaluation ℝ d → Evaluation ℝ d} {finite : β → Bool}
    (succeeds : ∀ w, (call.run w).1.ok = true) (total : ∀ v, finite v = true)
    (t : Evaluation ℝ d × σ) :
    ∃ t', (ask what call read store finite).outcome t = (.ok (), t') := by
  rw [outcome_ask, if_pos (by rw [succeeds, total]; rfl)]
  exact ⟨_, rfl⟩

theorem funcs_succeeds (h : p.SucceedsAt x) (t : Evaluation ℝ d × σ) :
    ∃ t', (funcs p x).outcome t = (.ok (), t') := by
  simp only [funcs, Step.outcome_bind_ok]
  obtain ⟨t₁, first⟩ := ask_succeeds (h.objective true) isFinite_real t
  obtain ⟨t₂, second⟩ := ask_succeeds (h.equalities false) (fun v => allFinite_real v.toList) t₁
  obtain ⟨t₃, third⟩ := ask_succeeds (h.inequalities false) (fun v => allFinite_real v.toList) t₂
  exact ⟨t₃, (), t₁, first, (), t₂, second, third⟩

theorem derivs_succeeds (h : p.SucceedsAt x) (t : Evaluation ℝ d × σ) :
    ∃ t', (derivs p x).outcome t = (.ok (), t') := by
  simp only [derivs, Step.outcome_bind_ok, Step.outcome_modify_bind]
  obtain ⟨t₁, first⟩ := ask_succeeds (h.gradient false) (fun v => allFinite_real v.toList) t
  obtain ⟨t₂, second⟩ := ask_succeeds (h.equalityJacobian false)
    (fun v => allFinite_real v.entries) (t₁.1.clearJacobians, t₁.2)
  obtain ⟨t₃, third⟩ := ask_succeeds (h.inequalityJacobian false)
    (fun v => allFinite_real v.entries) t₂
  exact ⟨t₃, (), t₁, first, (), t₂, second, third⟩

theorem all_succeeds (h : p.SucceedsAt x) (t : Evaluation ℝ d × σ) :
    ∃ t', (all p x).outcome t = (.ok (), t') := by
  obtain ⟨t₁, values⟩ := funcs_succeeds h t
  obtain ⟨t₂, derivatives⟩ := derivs_succeeds h t₁
  exact ⟨t₂, Step.outcome_bind_ok.mpr ⟨(), t₁, values, derivatives⟩⟩

end Evaluation

end SmoothOpt
