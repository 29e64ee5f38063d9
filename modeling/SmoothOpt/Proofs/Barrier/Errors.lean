import Mathlib
import SmoothOpt.Barrier.Residual
import SmoothOpt.Proofs.Barrier.Interior

/-!
What the error measures of an interior point say about it.

At an interior point multipliers of absent bounds are zero, so masked sums and differences are plain
ones. An overall error is at most a bound when stationarity, feasibility and complementarity are,
the first and the last up to their scalings.
-/
namespace SmoothOpt

open Scalar Linear

variable {n : Nat} {d : Dims}

/-- Scaling by the average of `count` multipliers with sum `total`; one when there are none. -/
noncomputable def averageScale (pSmax total : ℝ) (count : Nat) : ℝ :=
  if count = 0 then 1 else max pSmax (total / count) / pSmax

theorem multiplierScale_real (pSmax total : ℝ) (count : Nat) :
    multiplierScale pSmax total count = averageScale pSmax total count := by
  simp only [multiplierScale, averageScale, maxNum_real]
  by_cases none : count = 0
  · simp [none]
  · rw [if_pos (Nat.pos_of_ne_zero none), if_neg none]

theorem one_le_averageScale {pSmax : ℝ} (positive : 0 < pSmax) (total : ℝ) (count : Nat) :
    1 ≤ averageScale pSmax total count := by
  unfold averageScale
  split
  · exact le_rfl
  · rw [one_le_div positive]
    exact le_max_left _ _

/-- Multipliers that are not large on average are not scaled. -/
theorem averageScale_eq_one {pSmax total : ℝ} (positive : 0 < pSmax) (nonneg : 0 ≤ total)
    (small : total ≤ pSmax) (count : Nat) : averageScale pSmax total count = 1 := by
  unfold averageScale
  split
  · rfl
  · rename_i some_count
    have at_least_one : (1 : ℝ) ≤ count := by
      exact_mod_cast Nat.one_le_iff_ne_zero.mpr some_count
    have average : total / count ≤ pSmax := (div_le_self nonneg at_least_one).trans small
    rw [max_eq_left average, div_self positive.ne']

/-- The violation as a sum over both kinds of residuals. -/
theorem violation_eq_sum (e : Evaluation ℝ d) (it : Iterate ℝ d) :
    violation e it = ∑ r, |e.eq.get r| + ∑ r, |e.ineq.get r - it.s.point.get r| := by
  rw [violation, oneNorm_toList, oneNorm_toList]
  simp only [get_zipWith]

theorem violation_nonneg (e : Evaluation ℝ d) (it : Iterate ℝ d) : 0 ≤ violation e it := by
  rw [violation_eq_sum]
  positivity

/-- Without general constraints every point is feasible. -/
theorem violation_of_unconstrained (e : Evaluation ℝ ⟨n, 0, 0⟩) (it : Iterate ℝ ⟨n, 0, 0⟩) :
    violation e it = 0 := by
  rw [violation_eq_sum, Finset.univ_eq_empty, Finset.sum_empty, Finset.sum_empty, add_zero]

/-- Masked pulls of vectors that vanish at absent bounds are plain differences. -/
theorem get_pull {b : Box ℝ n} (base : Vector ℝ n) {lo hi : Vector ℝ n}
    (lower : PositiveWhere b.lower lo) (upper : PositiveWhere b.upper hi) (i : Fin n) :
    (Block.pull b base lo hi).get i = base.get i - lo.get i + hi.get i := by
  rw [Block.pull, Vector.get_ofFn, pulled]
  cases has_lo : (b.lower.get i).present <;> cases has_hi : (b.upper.get i).present
  · simp [lower.zero has_lo, upper.zero has_hi]
  · simp [lower.zero has_lo]
  · simp [upper.zero has_hi]
  · simp

/-- The terms of the bounds do not depend on what they are added to. -/
theorem Block.get_pull_sub (b : Box ℝ n) (base base' lo hi : Vector ℝ n) (i : Fin n) :
    (pull b base lo hi).get i - (pull b base' lo hi).get i = base.get i - base'.get i := by
  simp only [pull, pulled, Vector.get_ofFn]
  cases (b.lower.get i).present <;> cases (b.upper.get i).present <;>
    simp only [if_true, Bool.false_eq_true, if_false] <;> ring

theorem maskedOneNorm_eq {b : Vector (Bound ℝ) n} {v : Vector ℝ n} (h : PositiveWhere b v) :
    maskedOneNorm v.toList (b.toList.map (·.present)) = ∑ i, |v.get i| := by
  rw [maskedOneNorm_toList]
  apply Finset.sum_congr rfl
  intro i _
  cases present : (b.get i).present
  · simp [h.zero present]
  · simp

namespace Iterate

def constraintTotal (it : Iterate ℝ d) : ℝ := ∑ i, |it.yc.get i| + ∑ j, |it.yd.get j|

def boundTotal (it : Iterate ℝ d) : ℝ :=
  ∑ i, |it.x.multLo.get i| + ∑ i, |it.x.multHi.get i| + ∑ j, |it.s.multLo.get j|
    + ∑ j, |it.s.multHi.get j|

noncomputable def dualScale (it : Iterate ℝ d) (b : Bounds ℝ d) (pSmax : ℝ) : ℝ :=
  averageScale pSmax (it.constraintTotal + it.boundTotal) (d.m + b.count)

noncomputable def boundScale (it : Iterate ℝ d) (b : Bounds ℝ d) (pSmax : ℝ) : ℝ :=
  averageScale pSmax it.boundTotal b.count

/-- Every entry of the gradients of the Lagrangian is at most `bound`. -/
structure StationaryWithin (it : Iterate ℝ d) (e : Evaluation ℝ d) (bound : ℝ) : Prop where
  x : ∀ i, |e.grad.get i + ∑ r, e.jacEq.entry r i * it.yc.get r
    + ∑ r, e.jacIneq.entry r i * it.yd.get r - it.x.multLo.get i + it.x.multHi.get i| ≤ bound
  s : ∀ j, |-it.yd.get j - it.s.multLo.get j + it.s.multHi.get j| ≤ bound

/-- Every constraint is violated by at most `bound`. -/
structure FeasibleWithin (it : Iterate ℝ d) (e : Evaluation ℝ d) (bound : ℝ) : Prop where
  equalities : ∀ i, |e.eq.get i| ≤ bound
  inequalities : ∀ j, |e.ineq.get j - it.s.point.get j| ≤ bound

/-- Every product of a present distance with its multiplier is at most `bound`. -/
structure ComplementaryWithin (it : Iterate ℝ d) (b : Bounds ℝ d) (bound : ℝ) : Prop where
  xLower : ∀ i, (b.x.lower.get i).present = true → it.x.slackLo.get i * it.x.multLo.get i ≤ bound
  xUpper : ∀ i, (b.x.upper.get i).present = true → it.x.slackHi.get i * it.x.multHi.get i ≤ bound
  sLower : ∀ j, (b.s.lower.get j).present = true → it.s.slackLo.get j * it.s.multLo.get j ≤ bound
  sUpper : ∀ j, (b.s.upper.get j).present = true → it.s.slackHi.get j * it.s.multHi.get j ≤ bound

noncomputable def scaledError (it : Iterate ℝ d) (b : Bounds ℝ d) (pSmax optim feas complem : ℝ) :
    ℝ :=
  max (max (optim / it.dualScale b pSmax) feas) (complem / it.boundScale b pSmax)

theorem scaledError_le_iff (it : Iterate ℝ d) (b : Bounds ℝ d) {pSmax : ℝ} (positive : 0 < pSmax)
    (optim feas complem bound : ℝ) :
    it.scaledError b pSmax optim feas complem ≤ bound ↔
      optim ≤ bound * it.dualScale b pSmax ∧ feas ≤ bound ∧
        complem ≤ bound * it.boundScale b pSmax := by
  have dual_pos : 0 < it.dualScale b pSmax :=
    one_pos.trans_le (one_le_averageScale positive _ _)
  have bound_pos : 0 < it.boundScale b pSmax :=
    one_pos.trans_le (one_le_averageScale positive _ _)
  rw [scaledError, max_le_iff, max_le_iff, div_le_iff₀ dual_pos, div_le_iff₀ bound_pos, and_assoc]

/-- The scalings only lower the errors. -/
theorem scaledError_le (it : Iterate ℝ d) (b : Bounds ℝ d) {pSmax : ℝ} (positive : 0 < pSmax)
    {optim feas complem bound : ℝ} (nonneg : 0 ≤ bound) (optim_le : optim ≤ bound)
    (feas_le : feas ≤ bound) (complem_le : complem ≤ bound) :
    it.scaledError b pSmax optim feas complem ≤ bound :=
  (it.scaledError_le_iff b positive _ _ _ _).mpr
    ⟨optim_le.trans (le_mul_of_one_le_right nonneg (one_le_averageScale positive _ _)), feas_le,
      complem_le.trans (le_mul_of_one_le_right nonneg (one_le_averageScale positive _ _))⟩

/-- Every product of a present distance with its multiplier is within `bound` of `mu`. -/
structure CentralWithin (it : Iterate ℝ d) (b : Bounds ℝ d) (mu bound : ℝ) : Prop where
  xLower : ∀ i, (b.x.lower.get i).present = true →
    |it.x.slackLo.get i * it.x.multLo.get i - mu| ≤ bound
  xUpper : ∀ i, (b.x.upper.get i).present = true →
    |it.x.slackHi.get i * it.x.multHi.get i - mu| ≤ bound
  sLower : ∀ j, (b.s.lower.get j).present = true →
    |it.s.slackLo.get j * it.s.multLo.get j - mu| ≤ bound
  sUpper : ∀ j, (b.s.upper.get j).present = true →
    |it.s.slackHi.get j * it.s.multHi.get j - mu| ≤ bound

theorem complementarity_le_iff {it : Iterate ℝ d} {b : Bounds ℝ d} {mu bound : ℝ}
    (nonneg : 0 ≤ bound) : complementarity it b mu ≤ bound ↔ it.CentralWithin b mu bound := by
  simp only [complementarity, Box.hasLower, Box.hasUpper, maxNum_real, max_le_iff,
    maskedComplementarity_le_iff, nonneg, true_and]
  constructor
  · rintro ⟨⟨⟨xLower, xUpper⟩, sLower⟩, sUpper⟩
    exact ⟨xLower, xUpper, sLower, sUpper⟩
  · intro h
    exact ⟨⟨⟨h.xLower, h.xUpper⟩, h.sLower⟩, h.sUpper⟩

theorem Interior.complementarity_le_iff {it : Iterate ℝ d} {b : Bounds ℝ d} {bound : ℝ}
    (inside : it.Interior b) (nonneg : 0 ≤ bound) :
    complementarity it b 0 ≤ bound ↔ it.ComplementaryWithin b bound := by
  rw [Iterate.complementarity_le_iff nonneg]
  constructor
  · intro h
    refine ⟨?_, ?_, ?_, ?_⟩ <;> intro i present
    · simpa using (le_abs_self _).trans (h.xLower i present)
    · simpa using (le_abs_self _).trans (h.xUpper i present)
    · simpa using (le_abs_self _).trans (h.sLower i present)
    · simpa using (le_abs_self _).trans (h.sUpper i present)
  · intro h
    refine ⟨?_, ?_, ?_, ?_⟩ <;> intro i present <;> rw [sub_zero]
    · rw [abs_of_pos (mul_pos (inside.x.slackLo.pos present) (inside.x.multLo.pos present))]
      exact h.xLower i present
    · rw [abs_of_pos (mul_pos (inside.x.slackHi.pos present) (inside.x.multHi.pos present))]
      exact h.xUpper i present
    · rw [abs_of_pos (mul_pos (inside.s.slackLo.pos present) (inside.s.multLo.pos present))]
      exact h.sLower i present
    · rw [abs_of_pos (mul_pos (inside.s.slackHi.pos present) (inside.s.multHi.pos present))]
      exact h.sUpper i present

end Iterate

namespace Residual

variable {it : Iterate ℝ d} {e : Evaluation ℝ d} {b : Bounds ℝ d} {mu pSmax bound : ℝ}

/-- Both overall errors are scaled with the totals of the multipliers. -/
theorem compute_overall (inside : it.Interior b) (e : Evaluation ℝ d) (mu pSmax : ℝ) :
    let r := compute it e b mu pSmax
    r.nlpOverall = it.scaledError b pSmax r.nlpOptim r.nlpFeas r.nlpComplem ∧
      r.barOverall = it.scaledError b pSmax r.nlpOptim r.nlpFeas r.barComplem := by
  have bounds : maskedOneNorm it.x.multLo.toList b.x.hasLower
      + maskedOneNorm it.x.multHi.toList b.x.hasUpper
      + maskedOneNorm it.s.multLo.toList b.s.hasLower
      + maskedOneNorm it.s.multHi.toList b.s.hasUpper = it.boundTotal := by
    simp only [Box.hasLower, Box.hasUpper, maskedOneNorm_eq inside.x.multLo,
      maskedOneNorm_eq inside.x.multHi, maskedOneNorm_eq inside.s.multLo,
      maskedOneNorm_eq inside.s.multHi, Iterate.boundTotal]
  have constraints : oneNorm it.yc.toList + oneNorm it.yd.toList = it.constraintTotal := by
    rw [oneNorm_toList, oneNorm_toList, Iterate.constraintTotal]
  simp only [compute, withBarrier, bounds, constraints, multiplierScale_real, maxNum_real]
  exact ⟨rfl, rfl⟩

theorem compute_nlpOptim_le_iff (inside : it.Interior b) (nonneg : 0 ≤ bound) :
    (compute it e b mu pSmax).nlpOptim ≤ bound ↔ it.StationaryWithin e bound := by
  have entryX := fun i => get_pull (e.lagrangianGradient it.yc it.yd) inside.x.multLo
    inside.x.multHi i
  have entryS := fun j => get_pull (it.yd.map (-·)) inside.s.multLo inside.s.multHi j
  simp only [Evaluation.lagrangianGradient, Dense.get_addTransposeProduct, Vector.get_map]
    at entryX entryS
  simp only [compute, withBarrier, maxNum_real, max_le_iff, infNorm_le_iff, nonneg, true_and,
    Evaluation.lagrangianGradient, entryX, entryS]
  exact ⟨fun h => ⟨h.1, h.2⟩, fun h => ⟨h.x, h.s⟩⟩

theorem compute_nlpFeas_le_iff (nonneg : 0 ≤ bound) :
    (compute it e b mu pSmax).nlpFeas ≤ bound ↔ it.FeasibleWithin e bound := by
  simp only [compute, withBarrier, maxNum_real, max_le_iff, infNorm_le_iff, nonneg, true_and,
    get_zipWith]
  exact ⟨fun h => ⟨h.1, h.2⟩, fun h => ⟨h.equalities, h.inequalities⟩⟩

/-- The overall error of an interior point is small when and only when each of its parts is. -/
theorem compute_nlpOverall_le_iff (inside : it.Interior b) (positive : 0 < pSmax)
    (nonneg : 0 ≤ bound) :
    (compute it e b mu pSmax).nlpOverall ≤ bound ↔
      it.StationaryWithin e (bound * it.dualScale b pSmax) ∧ it.FeasibleWithin e bound ∧
        it.ComplementaryWithin b (bound * it.boundScale b pSmax) := by
  have dual_nonneg : 0 ≤ bound * it.dualScale b pSmax :=
    mul_nonneg nonneg (zero_le_one.trans (one_le_averageScale positive _ _))
  have bound_nonneg : 0 ≤ bound * it.boundScale b pSmax :=
    mul_nonneg nonneg (zero_le_one.trans (one_le_averageScale positive _ _))
  rw [(compute_overall inside e mu pSmax).1, it.scaledError_le_iff b positive,
    compute_nlpOptim_le_iff inside dual_nonneg, compute_nlpFeas_le_iff nonneg]
  exact and_congr_right fun _ => and_congr_right fun _ => inside.complementarity_le_iff bound_nonneg

/-- It is small already when the parts are small without their scalings. -/
theorem compute_nlpOverall_le (inside : it.Interior b) (positive : 0 < pSmax) (nonneg : 0 ≤ bound)
    (stationary : it.StationaryWithin e bound) (feasible : it.FeasibleWithin e bound)
    (complementary : it.ComplementaryWithin b bound) :
    (compute it e b mu pSmax).nlpOverall ≤ bound := by
  rw [(compute_overall inside e mu pSmax).1]
  exact it.scaledError_le b positive nonneg ((compute_nlpOptim_le_iff inside nonneg).mpr stationary)
    ((compute_nlpFeas_le_iff nonneg).mpr feasible)
    ((inside.complementarity_le_iff nonneg).mpr complementary)

/-- The same for the barrier error, with the products near the barrier parameter. -/
theorem compute_barOverall_le_iff (inside : it.Interior b) (positive : 0 < pSmax)
    (nonneg : 0 ≤ bound) :
    (compute it e b mu pSmax).barOverall ≤ bound ↔
      it.StationaryWithin e (bound * it.dualScale b pSmax) ∧ it.FeasibleWithin e bound ∧
        it.CentralWithin b mu (bound * it.boundScale b pSmax) := by
  have dual_nonneg : 0 ≤ bound * it.dualScale b pSmax :=
    mul_nonneg nonneg (zero_le_one.trans (one_le_averageScale positive _ _))
  have bound_nonneg : 0 ≤ bound * it.boundScale b pSmax :=
    mul_nonneg nonneg (zero_le_one.trans (one_le_averageScale positive _ _))
  rw [(compute_overall inside e mu pSmax).2, it.scaledError_le_iff b positive,
    compute_nlpOptim_le_iff inside dual_nonneg, compute_nlpFeas_le_iff nonneg]
  exact and_congr_right fun _ => and_congr_right fun _ =>
    Iterate.complementarity_le_iff bound_nonneg

theorem compute_barOverall_le (inside : it.Interior b) (positive : 0 < pSmax) (nonneg : 0 ≤ bound)
    (stationary : it.StationaryWithin e bound) (feasible : it.FeasibleWithin e bound)
    (central : it.CentralWithin b mu bound) : (compute it e b mu pSmax).barOverall ≤ bound := by
  rw [(compute_overall inside e mu pSmax).2]
  exact it.scaledError_le b positive nonneg ((compute_nlpOptim_le_iff inside nonneg).mpr stationary)
    ((compute_nlpFeas_le_iff nonneg).mpr feasible)
    ((Iterate.complementarity_le_iff nonneg).mpr central)

end Residual

end SmoothOpt
