import Mathlib
import SmoothOpt.Penalty.View
import SmoothOpt.Proofs.Linear.Spectral
import SmoothOpt.Proofs.Problem.Answer

/-!
The view of a problem, entry by entry.

A point `z = (x, s)` has entries of two kinds, and so has the penalty vector. With the derivative
`P = [Jc 0; Jd -I]` of the penalty vector, the gradient and the Hessian of the augmented Lagrangian
are one expression each in all their blocks.
-/
namespace SmoothOpt.Penalty

open Scalar Linear View

section Evaluated

variable {α σ : Type} [Scalar α] {d : Dims} {p : Problem α σ d} {z : Vector α (d.n + d.mIneq)}
  {e : Evaluation α d} {penalty : Vector α (entryCount d)} {w w' : σ}

theorem evaluateAt_of_outcome {derivatives : Bool}
    (h : (if derivatives then Evaluation.all p (variablePart z)
      else Evaluation.funcs p (variablePart z)).outcome (.blank, w) = (.ok (), (e, w'))) :
    (evaluateAt p z derivatives).run w = (some (e, penaltyVector e z), w') := by
  simp only [evaluateAt, StateT.run, h]

/-- An evaluation that succeeds comes with the penalty vector of its point. -/
theorem evaluateAt_some {derivatives : Bool}
    (h : (evaluateAt p z derivatives).run w = (some (e, penalty), w')) :
    (if derivatives then Evaluation.all p (variablePart z)
        else Evaluation.funcs p (variablePart z)).outcome (.blank, w) = (.ok (), (e, w')) ∧
      penalty = penaltyVector e z := by
  rcases ran : (if derivatives then Evaluation.all p (variablePart z)
    else Evaluation.funcs p (variablePart z)).outcome (.blank, w) with ⟨cause | _, e', w₁⟩
  · simp only [evaluateAt, StateT.run, ran] at h
    cases h
  · rw [evaluateAt_of_outcome ran] at h
    cases h
    exact ⟨rfl, rfl⟩

theorem residuals_of_outcome {v : View α d}
    (evaluated : (Evaluation.all p (variablePart z)).outcome (.blank, w) = (.ok (), (e, w'))) :
    (v.residuals p z).run w = (some (penaltyVector e z,
      v.projectedGradient z (v.meritGradient e (penaltyVector e z))), w') := by
  have ran : (evaluateAt p z true).run w = _ := evaluateAt_of_outcome evaluated
  simp only [residuals, run_bind, ran]
  rfl

/-- Residuals are those of answers at their point. -/
theorem residuals_some {v : View α d} {gradient : Vector α (d.n + d.mIneq)}
    (h : (v.residuals p z).run w = (some (penalty, gradient), w')) :
    ∃ e, e.AnswersAt p (variablePart z) ∧ penalty = penaltyVector e z ∧
      gradient = v.projectedGradient z (v.meritGradient e penalty) := by
  rcases ran : (evaluateAt p z true).run w with ⟨_ | ⟨e, penalty'⟩, w₁⟩
  · simp only [residuals, run_bind, ran] at h
    cases h
  · obtain ⟨evaluated, rfl⟩ := evaluateAt_some ran
    simp only [residuals, run_bind, ran] at h
    cases h
    exact ⟨e, Evaluation.all_ok evaluated, rfl, rfl⟩

end Evaluated

section Entries

variable {d : Dims} {e : Evaluation ℝ d} {v : View ℝ d} {penalty : Vector ℝ (entryCount d)}

/-- Derivative `[Jc 0; Jd -I]` of the penalty vector in variables and slacks. -/
noncomputable def penaltyJacobian (e : Evaluation ℝ d) : Dense ℝ (entryCount d) (d.n + d.mIneq) :=
  Dense.ofFn (Fin.append (fun r => Fin.append (e.jacEq.entry r) 0)
    fun j => Fin.append (e.jacIneq.entry j) (Pi.single j (-1)))

@[simp] theorem penaltyJacobian_equality (r : Fin d.mEq) :
    (penaltyJacobian e).entry (r.castAdd d.mIneq) = Fin.append (e.jacEq.entry r) 0 := by
  funext a
  rw [penaltyJacobian, Dense.entry_ofFn, Fin.append_left]

@[simp] theorem penaltyJacobian_inequality (j : Fin d.mIneq) :
    (penaltyJacobian e).entry (j.natAdd d.mEq) =
      Fin.append (e.jacIneq.entry j) (Pi.single j (-1)) := by
  funext a
  rw [penaltyJacobian, Dense.entry_ofFn, Fin.append_right]

/-- The gradient is that of the objective, and the rows of `P` with the estimated multipliers. -/
theorem get_meritGradient (a : Fin (d.n + d.mIneq)) : (v.meritGradient e penalty).get a =
    Fin.append e.grad.get 0 a
      + ∑ k, (penaltyJacobian e).entry k a * (v.multiplierEstimate penalty).get k := by
  rw [Fin.sum_univ_add]
  refine Fin.addCases (fun i => ?_) (fun j => ?_) a
  · simp only [meritGradient, get_append_castAdd, Evaluation.lagrangianGradient, equalityPart,
      inequalityPart, Dense.get_addTransposeProduct, get_firstPart, get_lastPart,
      penaltyJacobian_equality, penaltyJacobian_inequality, Fin.append_left, add_assoc]
  · simp only [meritGradient, get_append_natAdd, Vector.get_map, inequalityPart, get_lastPart,
      penaltyJacobian_equality, penaltyJacobian_inequality, Fin.append_right, Pi.zero_apply,
      Pi.single_apply, zero_mul, Finset.sum_const_zero, zero_add, ite_mul, neg_one_mul,
      Finset.sum_ite_eq, Finset.mem_univ, if_true]

section Hessian

variable (hess : Dense ℝ d.n d.n) (weight : ℝ)

theorem meritHessian_xx (i i' : Fin d.n) :
    (v.meritHessian e hess weight).entry (i.castAdd d.mIneq) (i'.castAdd d.mIneq) =
      weight * (hess.entry i i' + v.rho * (∑ r, e.jacEq.entry r i * e.jacEq.entry r i'
        + ∑ j, e.jacIneq.entry j i * e.jacIneq.entry j i')) := by
  have block : (v.meritHessian e hess weight).entry (i.castAdd d.mIneq) (i'.castAdd d.mIneq) =
      ((hess.add (((e.jacEq.transpose.mul e.jacEq).add
        (e.jacIneq.transpose.mul e.jacIneq)).scale v.rho)).scale weight).entry i i' := by
    simp only [meritHessian, Dense.entry, get_append_castAdd, get_zipWith]
  rw [block]
  simp only [Dense.entry_scale, Dense.entry_add, Dense.entry_mul, Dense.entry_transpose]
  ring

theorem meritHessian_xs (i : Fin d.n) (j : Fin d.mIneq) :
    (v.meritHessian e hess weight).entry (i.castAdd d.mIneq) (j.natAdd d.n) =
      weight * (v.rho * -e.jacIneq.entry j i) := by
  have block : (v.meritHessian e hess weight).entry (i.castAdd d.mIneq) (j.natAdd d.n) =
      (e.jacIneq.transpose.scale (-v.rho * weight)).entry i j := by
    simp only [meritHessian, Dense.entry, get_append_castAdd, get_append_natAdd, get_zipWith]
  rw [block, Dense.entry_scale, Dense.entry_transpose]
  ring

theorem meritHessian_sx (j : Fin d.mIneq) (i : Fin d.n) :
    (v.meritHessian e hess weight).entry (j.natAdd d.n) (i.castAdd d.mIneq) =
      weight * (v.rho * -e.jacIneq.entry j i) := by
  have block : (v.meritHessian e hess weight).entry (j.natAdd d.n) (i.castAdd d.mIneq) =
      ((e.jacIneq.transpose.scale (-v.rho * weight)).column j).get i := by
    simp only [meritHessian, Dense.entry, get_append_castAdd, get_append_natAdd, Vector.get_ofFn]
  rw [block, Dense.get_column, Dense.entry_scale, Dense.entry_transpose]
  ring

theorem meritHessian_ss (j j' : Fin d.mIneq) :
    (v.meritHessian e hess weight).entry (j.natAdd d.n) (j'.natAdd d.n) =
      weight * (v.rho * if j' = j then 1 else 0) := by
  have block : (v.meritHessian e hess weight).entry (j.natAdd d.n) (j'.natAdd d.n) =
      (spike j (v.rho * weight)).get j' := by
    simp only [meritHessian, Dense.entry, get_append_natAdd, Vector.get_ofFn]
  rw [block, get_spike]
  split
  · ring
  · ring

/-- The Hessian of the variables in the place of the variables, zero elsewhere. -/
def extended : Fin (d.n + d.mIneq) → Fin (d.n + d.mIneq) → ℝ :=
  Fin.append (fun i => Fin.append (hess.entry i) 0) 0

/-- All four blocks of the Hessian at once: `w (H + ρ PᵀP)`. -/
theorem entry_meritHessian (a b : Fin (d.n + d.mIneq)) :
    (v.meritHessian e hess weight).entry a b = weight * (extended hess a b
      + v.rho * ∑ k, (penaltyJacobian e).entry k a * (penaltyJacobian e).entry k b) := by
  rw [Fin.sum_univ_add]
  simp only [penaltyJacobian_equality, penaltyJacobian_inequality, extended]
  refine Fin.addCases (fun i => ?_) (fun j => ?_) a
  · refine Fin.addCases (fun i' => ?_) (fun j' => ?_) b
    · rw [meritHessian_xx]
      simp only [Fin.append_left]
    · rw [meritHessian_xs]
      simp [Pi.single_apply]
  · refine Fin.addCases (fun i' => ?_) (fun j' => ?_) b
    · rw [meritHessian_sx]
      simp [Pi.single_apply]
    · rw [meritHessian_ss]
      by_cases same : j' = j
      · simp [Pi.single_apply, same]
      · simp [Pi.single_apply, same, Ne.symm same]

theorem meritHessian_symmetric {hess : Dense ℝ d.n d.n} (symmetric : hess.Symmetric) :
    (v.meritHessian e hess weight).Symmetric := by
  have mirrored : ∀ a b, extended hess a b = extended hess b a := by
    intro a b
    simp only [extended]
    refine Fin.addCases (fun i => ?_) (fun j => ?_) a <;>
      refine Fin.addCases (fun i' => ?_) (fun j' => ?_) b
    · simp only [Fin.append_left, symmetric i i']
    · simp only [Fin.append_left, Fin.append_right, Pi.zero_apply]
    · simp only [Fin.append_left, Fin.append_right, Pi.zero_apply]
    · simp only [Fin.append_right, Pi.zero_apply]
  intro a b
  simp only [entry_meritHessian, mirrored a b, mul_comm ((penaltyJacobian e).entry _ a)]

end Hessian

end Entries

end SmoothOpt.Penalty
