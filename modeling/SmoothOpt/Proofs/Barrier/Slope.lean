import Mathlib
import SmoothOpt.Proofs.Barrier.Descent
import SmoothOpt.Proofs.Barrier.StepLength
import SmoothOpt.Proofs.Problem.Calculus

/-!
The slope of the barrier objective is its derivative along the trial points.

The line search compares the barrier objective of a trial point with a multiple of the slope. The
slope pulls the gradient by `mu / s` at every present bound, with a minus for lower and a plus for
upper ones; the trial moves a lower distance with the point and an upper one against it; the barrier
objective takes the logarithms of the distances so moved. The three agree on every mixture of
bounds, so the slope belongs to the function that the trials are measured by.
-/
namespace SmoothOpt

open Scalar Linear Matrix

variable {n : Nat} {d : Dims}

/-- Along moving entries that start out positive, the sum of the logarithms of the flagged ones
changes at the rate of the sum of their relative speeds. -/
theorem hasDerivAt_maskedLogSum {b : Vector (Bound ℝ) n} {v : Vector ℝ n} {rate : Fin n → ℝ}
    (positive : ∀ i, (b.get i).present = true → 0 < v.get i) (v' : ℝ → Vector ℝ n)
    (moved : ∀ t i, (b.get i).present = true → (v' t).get i = v.get i + t * rate i) :
    HasDerivAt (fun t => maskedLogSum (v' t).toList (b.toList.map (·.present)))
      (∑ i, if (b.get i).present then rate i / v.get i else 0) 0 := by
  simp only [maskedLogSum_toList]
  apply HasDerivAt.fun_sum
  intro i _
  cases present : (b.get i).present with
  | false => exact hasDerivAt_const 0 0
  | true =>
    simp only [if_true, moved _ i present]
    have line : HasDerivAt (fun t => v.get i + t * rate i) (rate i) 0 :=
      (((hasDerivAt_id' 0).mul_const (rate i)).const_add (v.get i)).congr_deriv (one_mul _)
    have start : v.get i + 0 * rate i = v.get i := by
      rw [zero_mul, add_zero]
    have logarithm := line.log (start.trans_ne (positive i present).ne')
    rwa [start] at logarithm

namespace Block

noncomputable def logSum (k : Block ℝ n) (b : Box ℝ n) : ℝ :=
  maskedLogSum k.slackLo.toList b.hasLower + maskedLogSum k.slackHi.toList b.hasUpper

/-- Speed of the sum of the logarithms when the point moves with speed `dv`. -/
noncomputable def logSlope (k : Block ℝ n) (b : Box ℝ n) (dv : Vector ℝ n) : ℝ :=
  (∑ i, if (b.lower.get i).present then dv.get i / k.slackLo.get i else 0)
    + ∑ i, if (b.upper.get i).present then -dv.get i / k.slackHi.get i else 0

variable {k : Block ℝ n} {b : Box ℝ n}

theorem hasDerivAt_logSum (positive : k.SlacksPositive b) (step : BlockStep ℝ n) :
    HasDerivAt (fun t => (k.moved step b t).logSum b) (k.logSlope b step.point) 0 := by
  refine (hasDerivAt_maskedLogSum positive.lower (fun t => (k.moved step b t).slackLo) ?_).add
    (hasDerivAt_maskedLogSum positive.upper (fun t => (k.moved step b t).slackHi) ?_)
  · intro t i present
    simp [moved, present]
  · intro t i present
    simp [moved, present, sub_eq_add_neg]

theorem moved_zero (k : Block ℝ n) (step : BlockStep ℝ n) (b : Box ℝ n) :
    k.moved step b 0 = k := by
  simp only [moved, zero_mul, add_zero, sub_zero, ite_self]
  have entries : ∀ v : Vector ℝ n, (Vector.ofFn fun i => v.get i) = v := ofFn_get
  rw [entries, entries, entries]

/-- The terms `mu / s` of the pulled gradient are those of the logarithms. -/
theorem barrierPull_dotProduct (k : Block ℝ n) (b : Box ℝ n) (base dv : Vector ℝ n) (mu : ℝ) :
    (k.barrierPull b base mu).get ⬝ᵥ dv.get = base.get ⬝ᵥ dv.get - mu * k.logSlope b dv := by
  have entry : ∀ i, (k.barrierPull b base mu).get i * dv.get i = base.get i * dv.get i
      - mu * ((if (b.lower.get i).present then dv.get i / k.slackLo.get i else 0)
        + if (b.upper.get i).present then -dv.get i / k.slackHi.get i else 0) := by
    intro i
    simp only [barrierPull, pull, pulled, Vector.get_ofFn, Vector.get_map]
    cases (b.lower.get i).present <;> cases (b.upper.get i).present <;>
      simp only [if_true, Bool.false_eq_true, if_false] <;> ring
  simp only [dotProduct, entry, logSlope, Finset.sum_sub_distrib, ← Finset.mul_sum,
    Finset.sum_add_distrib]

end Block

theorem barrierObjective_eq (e : Evaluation ℝ d) (it : Iterate ℝ d) (b : Bounds ℝ d) (mu : ℝ) :
    barrierObjective e it b mu = e.f - mu * (it.x.logSum b.x + it.s.logSum b.s) := by
  rw [barrierObjective, Block.logSum, Block.logSum]
  ring

/-- The slope is that of the objective less `mu` times those of the logarithms. -/
theorem barrierSlope_eq_sub (e : Evaluation ℝ d) (it : Iterate ℝ d) (dir : Direction ℝ d)
    (b : Bounds ℝ d) (mu : ℝ) :
    barrierSlope e it dir b mu = e.grad.get ⬝ᵥ dir.x.point.get
      - mu * (it.x.logSlope b.x dir.x.point + it.s.logSlope b.s dir.s.point) := by
  have unweighted : (Vector.replicate d.mIneq (0 : ℝ)).get ⬝ᵥ dir.s.point.get = 0 := by
    simp [dotProduct]
  rw [barrierSlope_eq, barrierGradient, Direction.primal, sumElim_dotProduct_sumElim,
    Block.barrierPull_dotProduct, Block.barrierPull_dotProduct, unweighted]
  ring

section Trial

variable {evaluate : Vector ℝ d.n → Evaluation ℝ d} {it : Iterate ℝ d} {b : Bounds ℝ d}

theorem hasDerivAt_barrierObjective
    (gradient : GradientAt (fun x => (evaluate x).f) (evaluate it.x.point).grad.get it.x.point)
    (positive : it.SlacksPositive b) (dir : Direction ℝ d) (mu : ℝ) :
    HasDerivAt
      (fun alpha => barrierObjective (evaluate (it.trial dir b alpha).x.point)
        (it.trial dir b alpha) b mu)
      ((evaluate it.x.point).grad.get ⬝ᵥ dir.x.point.get
        - mu * (it.x.logSlope b.x dir.x.point + it.s.logSlope b.s dir.s.point)) 0 := by
  have logarithms := (Block.hasDerivAt_logSum positive.x dir.x).add
    (Block.hasDerivAt_logSum positive.s dir.s)
  simp only [barrierObjective_eq]
  exact (gradient.along dir.x.point.get).sub (logarithms.const_mul mu)

/-- Where the objective has the evaluated gradient and the present distances are positive, the
barrier objective of the trial points is differentiable in the step length at zero, and its
derivative is the slope of the line search. -/
theorem barrierSlope_hasDerivAt
    (gradient : GradientAt (fun x => (evaluate x).f) (evaluate it.x.point).grad.get it.x.point)
    (positive : it.SlacksPositive b) (dir : Direction ℝ d) (mu : ℝ) :
    HasDerivAt
      (fun alpha => barrierObjective (evaluate (it.trial dir b alpha).x.point)
        (it.trial dir b alpha) b mu)
      (barrierSlope (evaluate it.x.point) it dir b mu) 0 := by
  rw [barrierSlope_eq_sub]
  exact hasDerivAt_barrierObjective gradient positive dir mu

/-- So along a direction of descent every short enough trial passes the Armijo test. -/
theorem exists_armijo_of_descent
    (gradient : GradientAt (fun x => (evaluate x).f) (evaluate it.x.point).grad.get it.x.point)
    (positive : it.SlacksPositive b) {dir : Direction ℝ d} {mu eta : ℝ} (eta_lt : eta < 1)
    (descends : barrierSlope (evaluate it.x.point) it dir b mu < 0) :
    ∃ short > 0, ∀ alpha, 0 < alpha → alpha < short →
      barrierObjective (evaluate (it.trial dir b alpha).x.point) (it.trial dir b alpha) b mu ≤
        barrierObjective (evaluate it.x.point) it b mu
          + eta * alpha * barrierSlope (evaluate it.x.point) it dir b mu := by
  have derivative := hasDerivAt_barrierObjective gradient positive dir mu
  rw [← barrierSlope_eq_sub] at derivative
  have steeper : barrierSlope (evaluate it.x.point) it dir b mu <
      eta * barrierSlope (evaluate it.x.point) it dir b mu := by
    linarith [mul_lt_mul_of_neg_right eta_lt descends]
  have below := derivative.hasDerivWithinAt.limsup_slope_le' Set.self_notMem_Ioi steeper
  obtain ⟨short, short_pos, trials⟩ := mem_nhdsGT_iff_exists_Ioo_subset.mp below
  refine ⟨short, short_pos, ?_⟩
  intro alpha alpha_pos alpha_lt
  have quotient := trials ⟨alpha_pos, alpha_lt⟩
  have start : it.trial dir b 0 = it := by
    rw [Iterate.trial, Block.moved_zero, Block.moved_zero]
  rw [Set.mem_ofPred_eq, slope_def_field, start, sub_zero, div_lt_iff₀ alpha_pos] at quotient
  linarith

end Trial

namespace TwoSided

/-- The objective `x²`, with the square as the body of the inequality too. -/
noncomputable def evaluate (x : Vector ℝ 1) : Evaluation ℝ dims where
  f := x.get ⟨0, Nat.one_pos⟩ * x.get ⟨0, Nat.one_pos⟩
  eq := noEntries
  ineq := single (x.get ⟨0, Nat.one_pos⟩ * x.get ⟨0, Nat.one_pos⟩)
  grad := single (x.get ⟨0, Nat.one_pos⟩ + x.get ⟨0, Nat.one_pos⟩)
  jacEq := noEntries
  jacIneq := single (single (x.get ⟨0, Nat.one_pos⟩ + x.get ⟨0, Nat.one_pos⟩))

/-- The objective climbs at rate 4. Of the logarithms of the distances 2, 1 and 4 the first grows at
rate `1/2`, the second falls at rate 1 and the third grows at rate `1/4`. -/
theorem slope_at_point :
    HasDerivAt
      (fun alpha => barrierObjective (evaluate (point.trial direction bounds alpha).x.point)
        (point.trial direction bounds alpha) bounds 4) 5 0 := by
  have gradient : GradientAt (fun x => (evaluate x).f) (evaluate point.x.point).grad.get
      point.x.point := by
    have product := (GradientAt.coordinate 0 point.x.point).mul (.coordinate 0 point.x.point)
    have rows : point.x.point.get 0 • Pi.single 0 1 + point.x.point.get 0 • Pi.single 0 1 =
        (evaluate point.x.point).grad.get := by
      funext i
      obtain rfl : i = 0 := Subsingleton.elim _ _
      simp [evaluate, Vector.get_eq_getElem]
    rwa [rows] at product
  have derivative := barrierSlope_hasDerivAt gradient slacksPositive direction 4
  have value : barrierSlope (evaluate point.x.point) point direction bounds 4 = 5 := by
    rw [barrierSlope_eq_sub]
    simp [Block.logSlope, dotProduct, evaluate, point, direction, bounds, Vector.get_eq_getElem]
    norm_num
  rwa [value] at derivative

end TwoSided

end SmoothOpt
