import Mathlib.Analysis.SpecialFunctions.Pow.Real
import SmoothOpt.Scalar

/-!
The real numbers as a scalar: exact arithmetic.

Every comparison is the order's own, so `maxNum` and `minNum` are the lattice operations and no
value is undefined. The value that stands for an absent bound is the smallest one a bound in
earnest does not reach.
-/
namespace SmoothOpt

noncomputable instance : Scalar ℝ where
  decLe := fun _ _ => Classical.propDecidable _
  decLt := fun _ _ => Classical.propDecidable _
  magnitude := fun a => |a|
  sqrt := Real.sqrt
  ln := Real.log
  pow := fun a b => a ^ b
  isFinite := fun _ => true
  infinity := 1e20
  natCeil := Nat.ceil

namespace Scalar

@[simp] theorem magnitude_real (a : ℝ) : magnitude a = |a| := rfl

@[simp] theorem sqrt_real (a : ℝ) : sqrt a = Real.sqrt a := rfl

@[simp] theorem ln_real (a : ℝ) : ln a = Real.log a := rfl

@[simp] theorem pow_real (a b : ℝ) : pow a b = a ^ b := rfl

@[simp] theorem isFinite_real (a : ℝ) : isFinite a = true := rfl

@[simp] theorem isUndefined_real (a : ℝ) : isUndefined a = false := by
  simp [isUndefined]

@[simp] theorem maxNum_real (a b : ℝ) : maxNum a b = max a b := by
  simp only [maxNum, isUndefined_real, Bool.false_eq_true, if_false]
  split
  · rename_i le
    rw [max_eq_right le]
  · rename_i not_le
    rw [max_eq_left (le_of_not_ge not_le)]

@[simp] theorem minNum_real (a b : ℝ) : minNum a b = min a b := by
  simp only [minNum, isUndefined_real, Bool.false_eq_true, if_false]
  split
  · rename_i le
    rw [min_eq_right le]
  · rename_i not_le
    rw [min_eq_left (le_of_not_ge not_le)]

@[simp] theorem equals_real (a b : ℝ) : equals a b = decide (a = b) := by
  simp [equals, le_antisymm_iff]

@[simp] theorem sum_real (v : List ℝ) : sum v = v.sum := by
  rw [Scalar.sum, List.sum_eq_foldl, neg_zero]

end Scalar

end SmoothOpt
