import Mathlib
import SmoothOpt.Proofs.Newton.Spectrum

/-!
The inertia of a matrix, read off its balanced decomposition.

What is decomposed is the matrix after symmetric scaling, and its eigenvalues may be far from those
of the matrix itself. Their signs are not: scaling changes the variables of the quadratic form, and
the law of inertia holds. So when no eigenvalue counts as zero, the counters are the inertia of the
matrix before scaling, and the system with it has the one solution that is recovered by scaling
again. The last section follows the passes on a slack pinned to its bound: its barrier diagonal may
be so large that the plain eigenvalues lie far outside the tolerance, and the balanced ones do not.
-/
namespace SmoothOpt.Newton

open Scalar Linear Matrix

variable {n : Nat} {k : Dense ℝ n n}

section Factor

variable [solver : DenseSolver ℝ]

/-- Without a zero eigenvalue, the computed vector is the one solution of the system. -/
theorem solve_factor_iff (exact : EigenExact solver) (symmetric : k.Symmetric)
    (nonzero : ∀ i, (factor k).eigen.values.get i ≠ 0) (rhs x : Vector ℝ n) :
    k.mulVec x = rhs ↔ x = (factor k).solve rhs := by
  have read : ∀ v w : Vector ℝ n, v = w ↔ v.get = w.get := fun v w =>
    ⟨congrArg Vector.get, fun same => ext_get (congrFun same)⟩
  rw [read, read, Dense.get_mulVec_eq]
  exact factor_solve exact symmetric nonzero rhs x.get

/-- Without a zero eigenvalue, the matrix is invertible. -/
theorem isUnit_of_nonzero (exact : EigenExact solver) (symmetric : k.Symmetric)
    (nonzero : ∀ i, (factor k).eigen.values.get i ≠ 0) : IsUnit k.toMatrix := by
  rw [← mulVec_injective_iff_isUnit]
  intro x y same
  have solves := factor_solve exact symmetric nonzero (Vector.ofFn (k.toMatrix *ᵥ y))
  rw [get_ofFn_eq] at solves
  exact ((solves x).mp same).trans ((solves y).mp rfl).symm

/-- For every symmetric matrix the balancing scales are positive after any number of passes, and
the counters of its decomposition add up to the dimension. When no eigenvalue counts as zero, the
counters are the numbers of positive and of negative eigenvalues of the matrix before scaling, with
multiplicity, the matrix is invertible, and the computed vector is the one solution. -/
theorem factor_reveals_inertia (exact : EigenExact solver) (symmetric : k.Symmetric) :
    (∀ passes i, 0 < (equilibrate k passes).get i) ∧
      (factor k).inertia.pos + (factor k).inertia.neg + (factor k).inertia.zero = n ∧
      ((factor k).inertia.zero = 0 →
        (factor k).inertia.pos = k.eigenvalues.countP (0 < ·) ∧
          (factor k).inertia.neg = k.eigenvalues.countP (· < 0) ∧
          IsUnit k.toMatrix ∧
          ∀ rhs x, k.mulVec x = rhs ↔ x = (factor k).solve rhs) := by
  refine ⟨equilibrate_pos k, inertia_total _, fun regular => ?_⟩
  obtain ⟨nonzero, pos, neg⟩ := inertia_of_regular regular
  obtain ⟨same_pos, same_neg⟩ := factor_countP exact symmetric
  exact ⟨pos.trans same_pos, neg.trans same_neg, isUnit_of_nonzero exact symmetric nonzero,
    solve_factor_iff exact symmetric nonzero⟩

end Factor

namespace PinnedSlack

open Exact

variable {sigma r : ℝ}

/-- A slack with its barrier diagonal, and the multiplier it is coupled to. -/
noncomputable def block (sigma : ℝ) : Dense ℝ 2 2 := Dense.ofFn ![![sigma, -1], ![-1, 0]]

theorem block_symmetric (sigma : ℝ) : (block sigma).Symmetric := by
  intro i j
  fin_cases i <;> fin_cases j <;> simp [block]

/-- One pass: the diagonal rules the row of the slack, the coupling that of the multiplier. -/
theorem balanced (top low : ℝ) {scale : Vector ℝ 2} {s t : ℝ} (first : scale.get 0 = s)
    (second : scale.get 1 = t) (sigma_pos : 0 < sigma) (s_pos : 0 < s) (t_pos : 0 < t)
    (top_pos : 0 < top) (low_pos : 0 < low) (ruled : s * t ≤ sigma * s * s)
    (top_row : sigma * s * s = top ^ 2) (low_row : t * s = low ^ 2) :
    (balance (block sigma) scale).get 0 = s / top ∧
      (balance (block sigma) scale).get 1 = t / low := by
  have top_max : scaledRowMax (block sigma) scale 0 = top ^ 2 := by
    have entries : scaledRowMax (block sigma) scale 0 =
        max (max 0 |sigma * s * s|) |s * t| := by
      simp [scaledRowMax, List.finRange_succ, block, first, second]
    have diagonal_pos : 0 < sigma * s * s := by positivity
    rw [entries, abs_of_pos diagonal_pos, abs_of_pos (mul_pos s_pos t_pos),
      max_eq_right diagonal_pos.le, max_eq_left ruled, top_row]
  have low_max : scaledRowMax (block sigma) scale 1 = low ^ 2 := by
    have entries : scaledRowMax (block sigma) scale 1 = max 0 |t * s| := by
      simp [scaledRowMax, List.finRange_succ, block, first, second]
    have coupling_pos : 0 < t * s := mul_pos t_pos s_pos
    rw [entries, abs_of_pos coupling_pos, max_eq_right coupling_pos.le, low_row]
  constructor
  · simp only [balance, Vector.get_ofFn, top_max, first, sqrt_real, Real.sqrt_sq top_pos.le]
    rw [if_pos (pow_pos top_pos 2), mul_one_div]
  · simp only [balance, Vector.get_ofFn, low_max, second, sqrt_real, Real.sqrt_sq low_pos.le]
    rw [if_pos (pow_pos low_pos 2), mul_one_div]

/-- The first pass brings the diagonal to one. -/
theorem first_pass (one_le : 1 ≤ r) : (equilibrate (block (r ^ 8)) 1).get 0 = 1 / r ^ 4 ∧
    (equilibrate (block (r ^ 8)) 1).get 1 = 1 ^ 2 := by
  have r_pos : 0 < r := zero_lt_one.trans_le one_le
  have start : ∀ i, (equilibrate (block (r ^ 8)) 0).get i = 1 := by simp [equilibrate]
  have ruled : 1 * 1 ≤ r ^ 8 * 1 * 1 := by
    rw [mul_one, mul_one, mul_one]
    exact one_le_pow₀ one_le
  obtain ⟨slack, multiplier⟩ := balanced (r ^ 4) 1 (start 0) (start 1) (by positivity) one_pos
    one_pos (by positivity) one_pos ruled (by ring) (by ring)
  exact ⟨slack, multiplier.trans (by norm_num)⟩

/-- A later pass stretches the multiplier alone, by the square root of what the coupling lacks. -/
theorem later_pass {scale : Vector ℝ 2} {q : ℝ} (r_pos : 0 < r) (q_pos : 0 < q) (le : q ≤ r ^ 2)
    (slack : scale.get 0 = 1 / r ^ 4) (multiplier : scale.get 1 = q ^ 2) :
    (balance (block (r ^ 8)) scale).get 0 = 1 / r ^ 4 ∧
      (balance (block (r ^ 8)) scale).get 1 = q * r ^ 2 := by
  have diagonal : r ^ 8 * (1 / r ^ 4) * (1 / r ^ 4) = 1 ^ 2 := by field_simp
  have coupling : q ^ 2 * (1 / r ^ 4) = (q / r ^ 2) ^ 2 := by field_simp
  have ruled : 1 / r ^ 4 * q ^ 2 ≤ r ^ 8 * (1 / r ^ 4) * (1 / r ^ 4) := by
    rw [diagonal, mul_comm, coupling]
    exact pow_le_pow_left₀ (by positivity) ((div_le_one (by positivity)).mpr le) 2
  obtain ⟨slack', multiplier'⟩ := balanced 1 (q / r ^ 2) slack multiplier (by positivity)
    (by positivity) (by positivity) one_pos (by positivity) ruled diagonal coupling
  exact ⟨slack'.trans (div_one _), multiplier'.trans (by field_simp)⟩

theorem scales (one_le : 1 ≤ r) : (factor (block (r ^ 8))).scale.get 0 = 1 / r ^ 4 ∧
    (factor (block (r ^ 8))).scale.get 1 = r ^ 3 := by
  have r_pos : 0 < r := zero_lt_one.trans_le one_le
  obtain ⟨slack, multiplier⟩ := first_pass one_le
  obtain ⟨slack, multiplier⟩ := later_pass r_pos one_pos (one_le_pow₀ one_le) slack multiplier
  rw [one_mul] at multiplier
  obtain ⟨slack, multiplier⟩ := later_pass r_pos r_pos (le_self_pow₀ one_le two_ne_zero) slack
    multiplier
  exact ⟨slack, multiplier.trans (by ring)⟩

/-- The balanced matrix has unit trace and a small negative determinant. -/
theorem values (one_le : 1 ≤ r) :
    (factor (block (r ^ 8))).eigen.values.get 0 + (factor (block (r ^ 8))).eigen.values.get 1 = 1 ∧
      (factor (block (r ^ 8))).eigen.values.get 0 * (factor (block (r ^ 8))).eigen.values.get 1 =
        -(1 / r ^ 2) := by
  have r_pos : 0 < r := zero_lt_one.trans_le one_le
  have decomposes := factor_decomposes exactSolver_exact (block_symmetric (r ^ 8))
  have trace := decomposes.trace_eq
  have det := decomposes.det_eq
  obtain ⟨slack, multiplier⟩ := scales one_le
  rw [trace_fin_two, Fin.sum_univ_two] at trace
  rw [det_fin_two, Fin.prod_univ_two] at det
  rw [← trace, ← det]
  simp only [Dense.toMatrix_apply, congruence, Dense.entry_ofFn, slack, multiplier]
  constructor
  · simp [block]
    field_simp
  · simp [block]
    field_simp

/-- The roots of the characteristic polynomial after balancing. -/
theorem root_bounds {v c : ℝ} (c_pos : 0 < c) (le_one : c ≤ 1) (root : v * v - v = c) :
    c / 2 ≤ |v| ∧ |v| ≤ 2 := by
  obtain positive | negative := le_or_gt 0 v
  · rw [abs_of_nonneg positive]
    constructor <;> nlinarith
  · rw [abs_of_neg negative]
    constructor <;> nlinarith

theorem toList_values (v : Vector ℝ 2) : v.toList = [v.get 0, v.get 1] := by
  rw [toList_eq_map_get]
  rfl

theorem regular (one_le : 1 ≤ r) (le : r ≤ 1e6) : (factor (block (r ^ 8))).inertia.zero = 0 := by
  have r_pos : 0 < r := zero_lt_one.trans_le one_le
  obtain ⟨sum, product⟩ := values one_le
  have coupling_pos : 0 < 1 / r ^ 2 := by positivity
  have coupling_le : 1 / r ^ 2 ≤ 1 := (div_le_one (by positivity)).mpr (one_le_pow₀ one_le)
  have square_le : r ^ 2 ≤ 1e12 := (pow_le_pow_left₀ r_pos.le le 2).trans (by norm_num)
  have comparable : 1e-13 * 2 < 1 / r ^ 2 / 2 := by
    calc (1e-13 : ℝ) * 2 < 1 / 1e12 / 2 := by norm_num
      _ ≤ 1 / r ^ 2 / 2 := by gcongr
  refine ofEigenvalues_regular one_le_two comparable ?_
  rw [toList_values]
  simp only [List.forall_mem_cons, List.not_mem_nil, IsEmpty.forall_iff, implies_true, and_true]
  set first := (factor (block (r ^ 8))).eigen.values.get 0
  set second := (factor (block (r ^ 8))).eigen.values.get 1
  exact ⟨root_bounds coupling_pos coupling_le (by linear_combination first * sum - product),
    root_bounds coupling_pos coupling_le (by linear_combination second * sum - product)⟩

theorem inertia_of_pow (one_le : 1 ≤ r) (le : r ≤ 1e6) :
    (factor (block (r ^ 8))).inertia = ⟨1, 1, 0⟩ := by
  obtain ⟨-, pos, neg⟩ := inertia_of_regular (regular one_le le)
  have opposite := (values one_le).2.trans_lt (neg_neg_of_pos (by positivity))
  rw [toList_values] at pos neg
  have counts : (factor (block (r ^ 8))).inertia.pos = 1 ∧
      (factor (block (r ^ 8))).inertia.neg = 1 := by
    obtain ⟨first, second⟩ | ⟨first, second⟩ := mul_neg_iff.mp opposite
    · exact ⟨pos.trans (by simp [first, second.le]), neg.trans (by simp [first.le, second])⟩
    · exact ⟨pos.trans (by simp [first.le, second]), neg.trans (by simp [first, second.le])⟩
  exact congr (congrArg₂ Inertia.mk counts.1 counts.2) (regular one_le le)

/-- A slack and its multiplier show one eigenvalue of each sign, whatever the barrier diagonal from
one to `1e48`. -/
theorem inertia_eq (one_le : 1 ≤ sigma) (le : sigma ≤ 1e48) :
    (factor (block sigma)).inertia = ⟨1, 1, 0⟩ := by
  have sigma_nonneg := zero_le_one.trans one_le
  obtain ⟨r, r_nonneg, rfl⟩ : ∃ r : ℝ, 0 ≤ r ∧ r ^ 8 = sigma :=
    ⟨sigma ^ ((8 : ℕ) : ℝ)⁻¹, Real.rpow_nonneg sigma_nonneg _,
      Real.rpow_inv_natCast_pow sigma_nonneg (by norm_num)⟩
  apply inertia_of_pow
  · exact (one_le_pow_iff_of_nonneg r_nonneg (by norm_num)).mp one_le
  · apply le_of_pow_le_pow_left₀ (n := 8) (by norm_num) (by norm_num)
    exact le.trans (by norm_num)

/-- The system in the slack and the multiplier, solved by substitution. -/
theorem substitution_solves (rhs : Vector ℝ 2) : (block sigma).mulVec
    (Vector.ofFn ![-rhs.get 1, -(rhs.get 0 + sigma * rhs.get 1)]) = rhs := by
  apply ext_get
  intro i
  rw [Dense.get_mulVec, Fin.sum_univ_two]
  fin_cases i
  · simp [block]
  · simp [block]

end PinnedSlack

open Exact PinnedSlack in
/-- With a barrier diagonal of `1e32` both eigenvalues are counted by sign, and the step of slack
and multiplier is the one that substitution gives. -/
theorem pinned_slack_revealed : EigenExact exactSolver ∧ (block 1e32).Symmetric ∧
    (factor (block 1e32)).inertia = ⟨1, 1, 0⟩ ∧
    (block 1e32).eigenvalues.countP (0 < ·) = 1 ∧ (block 1e32).eigenvalues.countP (· < 0) = 1 ∧
    IsUnit (block 1e32).toMatrix ∧
    (factor (block 1e32)).solve (Vector.ofFn ![1e20, 0.5]) =
      Vector.ofFn ![-0.5, -(1e20 + 1e32 * 0.5)] := by
  have inertia : (factor (block 1e32)).inertia = ⟨1, 1, 0⟩ :=
    inertia_eq (by norm_num) (by norm_num)
  obtain ⟨-, -, revealed⟩ := factor_reveals_inertia exactSolver_exact (block_symmetric 1e32)
  obtain ⟨pos, neg, invertible, solves⟩ := revealed (congrArg Inertia.zero inertia)
  rw [inertia] at pos neg
  have solution := (solves _ _).mp (substitution_solves (Vector.ofFn ![1e20, 0.5]))
  simp only [Vector.get_ofFn, cons_val_zero, cons_val_one] at solution
  exact ⟨exactSolver_exact, block_symmetric 1e32, inertia, pos.symm, neg.symm, invertible,
    solution.symm⟩

end SmoothOpt.Newton
