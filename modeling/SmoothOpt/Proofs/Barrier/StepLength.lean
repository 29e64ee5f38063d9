import Mathlib
import SmoothOpt.Proofs.Barrier.Interior

/-!
The longest steps the fraction-to-boundary rule allows.

The rule goes over four vectors of distances, or of bound multipliers, each with its own flags and
direction of decrease. The updates of the same vectors are written elsewhere. Rule and update fit
together: a step length up to one is within the longest one exactly when the update at this length
leaves every present entry at least the share `1 - tau` of its value. So the longest step is safe,
and nothing shorter than it is turned down.
-/
namespace SmoothOpt

open Scalar Linear

variable {d : Dims}

namespace Iterate

/-- With positive distances and bound multipliers at the present bounds, whatever stands at the
absent ones, the longest primal and the longest dual step lie in `(0, 1]`, and a length in `[0, 1]`
is within the longest step exactly when the step of this length keeps all shares. -/
theorem longest_steps_exact {it : Iterate ℝ d} {b : Bounds ℝ d} {tau : ℝ}
    (slacks : it.SlacksPositive b) (multipliers : it.MultipliersPositive b) (tau_pos : 0 < tau)
    (dir : Direction ℝ d) :
    (0 < it.maxPrimalStep dir b tau ∧ it.maxPrimalStep dir b tau ≤ 1 ∧
        ∀ alpha, 0 ≤ alpha → alpha ≤ 1 →
          (alpha ≤ it.maxPrimalStep dir b tau ↔ it.SlacksKept (it.trial dir b alpha) b tau)) ∧
      0 < it.maxDualStep dir b tau ∧ it.maxDualStep dir b tau ≤ 1 ∧
        ∀ alpha, 0 ≤ alpha → alpha ≤ 1 →
          (alpha ≤ it.maxDualStep dir b tau ↔
            it.MultipliersKept (it.takeBoundStep dir b alpha) b tau) := by
  refine ⟨⟨maxPrimalStep_pos slacks tau_pos dir, maxPrimalStep_le_one slacks tau_pos.le dir, ?_⟩,
    maxDualStep_pos multipliers tau_pos dir, maxDualStep_le_one multipliers tau_pos.le dir, ?_⟩
  · intro alpha nonneg le_one
    rw [le_maxPrimalStep slacks tau_pos.le nonneg, and_iff_right le_one]
  · intro alpha nonneg le_one
    rw [le_maxDualStep multipliers tau_pos.le nonneg, and_iff_right le_one]

end Iterate

/-! A variable with a lower bound and an inequality with both. -/
namespace TwoSided

abbrev dims : Dims := ⟨1, 0, 1⟩

noncomputable def bounds : Bounds ℝ dims where
  x := ⟨single ⟨0, true⟩, single ⟨1e20, false⟩⟩
  s := ⟨single ⟨0, true⟩, single ⟨5, true⟩⟩
  relaxedFixed := 0

/-- The variable stands at 2 and the inequality at 1; the absent upper bound carries no distance. -/
noncomputable def point : Iterate ℝ dims where
  x := ⟨single 2.0, single 2.0, single 0, single 1, single 0⟩
  s := ⟨single 1, single 1, single 4, single 2.0, single 1⟩
  yc := noEntries
  yd := single 0

noncomputable def direction : Direction ℝ dims where
  x := ⟨single 1, single (-4), single 0⟩
  s := ⟨single (-1), single 1, single (-1)⟩
  dyc := noEntries
  dyd := single 0

theorem slacksPositive : point.SlacksPositive bounds := by
  refine ⟨⟨?_, ?_⟩, ?_, ?_⟩ <;> intro i present <;> obtain rfl : i = 0 := Subsingleton.elim _ _
  · exact (by norm_num : (0 : ℝ) < 2.0)
  · cases present
  · exact one_pos
  · exact four_pos

theorem multipliersPositive : point.MultipliersPositive bounds := by
  refine ⟨⟨?_, ?_⟩, ?_, ?_⟩ <;> intro i present <;> obtain rfl : i = 0 := Subsingleton.elim _ _
  · exact one_pos
  · cases present
  · exact (by norm_num : (0 : ℝ) < 2.0)
  · exact one_pos

theorem slacksKept_iff {alpha : ℝ} (nonneg : 0 ≤ alpha) :
    point.SlacksKept (point.trial direction bounds alpha) bounds (1 / 2) ↔ alpha ≤ 1 / 2 := by
  have entries : point.SlacksKept (point.trial direction bounds alpha) bounds (1 / 2) ↔
      (1 - 1 / 2) * 2 ≤ 2 + alpha * 1 ∧ (1 - 1 / 2) * 1 ≤ 1 + alpha * -1 ∧
        (1 - 1 / 2) * 4 ≤ 4 - alpha * -1 := by
    simp [Iterate.SlacksKept, Block.SlacksKept, KeepsShare, Iterate.trial, Block.moved, point,
      direction, bounds, Vector.get_eq_getElem]
    norm_num
  rw [entries]
  constructor
  · rintro ⟨-, lower, -⟩
    linarith
  · intro h
    refine ⟨?_, ?_, ?_⟩ <;> linarith

theorem multipliersKept_iff {alpha : ℝ} (nonneg : 0 ≤ alpha) :
    point.MultipliersKept (point.takeBoundStep direction bounds alpha) bounds (1 / 2) ↔
      alpha ≤ 1 / 8 := by
  have entries : point.MultipliersKept (point.takeBoundStep direction bounds alpha) bounds (1 / 2) ↔
      (1 - 1 / 2) * 1 ≤ 1 + alpha * -4 ∧ (1 - 1 / 2) * 2 ≤ 2 + alpha * 1 ∧
        (1 - 1 / 2) * 1 ≤ 1 + alpha * -1 := by
    simp [Iterate.MultipliersKept, Block.MultipliersKept, KeepsShare, Iterate.takeBoundStep,
      Block.multipliersMoved, movedWhere, point, direction, bounds, Vector.get_eq_getElem]
    norm_num
  rw [entries]
  constructor
  · rintro ⟨lower, -⟩
    linarith
  · intro h
    refine ⟨?_, ?_, ?_⟩ <;> linarith

/-- At `1/2` the lower distance of the inequality has lost its share, at `1/8` the lower multiplier
of the variable. -/
theorem longest_steps :
    point.maxPrimalStep direction bounds (1 / 2) = 1 / 2 ∧
      point.maxDualStep direction bounds (1 / 2) = 1 / 8 := by
  obtain ⟨⟨primal_pos, primal_le, primal⟩, dual_pos, dual_le, dual⟩ :=
    Iterate.longest_steps_exact slacksPositive multipliersPositive
      (by norm_num : (0 : ℝ) < 1 / 2) direction
  constructor <;> apply le_antisymm
  · exact (slacksKept_iff primal_pos.le).mp ((primal _ primal_pos.le primal_le).mp le_rfl)
  · rw [primal _ (by norm_num) (by norm_num), slacksKept_iff (by norm_num)]
  · exact (multipliersKept_iff dual_pos.le).mp ((dual _ dual_pos.le dual_le).mp le_rfl)
  · rw [dual _ (by norm_num) (by norm_num), multipliersKept_iff (by norm_num)]

end TwoSided

end SmoothOpt
