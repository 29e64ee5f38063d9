import Mathlib
import SmoothOpt.Newton.Inertia
import SmoothOpt.Proofs.Linear.Signature

/-!
What an inertia found by a scaled eigendecomposition says about the matrix itself.

The balancing scales are positive, so the decomposed matrix is congruent to the original one, and
its eigenvalues have the same signs. Each eigenvalue is counted once, as zero when its magnitude is
small beside the largest one. When none counts as zero the counters go by the signs, and the system
has one solution, the one `ScaledEigen.solve` computes. And a space on which the quadratic form is
nowhere positive cannot have more dimensions than there are negative eigenvalues.
-/
namespace SmoothOpt.Newton

open Scalar Linear Matrix

variable {n : Nat}

section Scaling

/-- Balancing keeps every scale positive. -/
theorem equilibrate_pos (k : Dense ℝ n n) (passes : Nat) (i : Fin n) :
    0 < (equilibrate k passes).get i := by
  induction passes with
  | zero => simp [equilibrate]
  | succ passes ih =>
    rw [equilibrate, balance, Vector.get_ofFn]
    apply mul_pos ih
    split
    · rename_i row_pos
      rw [sqrt_real]
      exact one_div_pos.mpr (Real.sqrt_pos.mpr row_pos)
    · exact one_pos

theorem congruence_symmetric {k : Dense ℝ n n} (symmetric : k.Symmetric) (scale : Vector ℝ n) :
    (congruence k scale).Symmetric := by
  intro i j
  simp only [congruence, Dense.entry_ofFn]
  rw [symmetric i j, mul_comm (scale.get i)]

/-- The scaled matrix applied to a vector is the matrix applied to the scaled vector, scaled. -/
theorem congruence_mulVec (k : Dense ℝ n n) (scale : Vector ℝ n) (u : Fin n → ℝ) :
    (congruence k scale).toMatrix *ᵥ u = scale.get * (k.toMatrix *ᵥ (scale.get * u)) := by
  ext i
  simp only [mulVec, dotProduct, Pi.mul_apply, Dense.toMatrix_apply, congruence, Dense.entry_ofFn,
    Finset.mul_sum]
  apply Finset.sum_congr rfl
  intro j _
  ring

/-- The quadratic forms agree. -/
theorem congruence_form (k : Dense ℝ n n) (scale : Vector ℝ n) (u : Fin n → ℝ) :
    u ⬝ᵥ ((congruence k scale).toMatrix *ᵥ u) =
      (scale.get * u) ⬝ᵥ (k.toMatrix *ᵥ (scale.get * u)) := by
  rw [congruence_mulVec]
  simp only [dotProduct, Pi.mul_apply]
  apply Finset.sum_congr rfl
  intro i _
  ring

/-- Scaling changes the variables of the quadratic form. -/
theorem congruence_equivalent (k : Dense ℝ n n) {scale : Vector ℝ n}
    (scale_ne : ∀ i, scale.get i ≠ 0) : (congruence k scale).form.Equivalent k.form := by
  refine ⟨⟨LinearEquiv.piCongrRight fun i => LinearEquiv.smulOfNeZero ℝ ℝ _ (scale_ne i),
    fun x => ?_⟩⟩
  rw [Dense.form_apply, Dense.form_apply, congruence_form]
  rfl

/-- Scaling keeps the numbers of positive and negative eigenvalues. -/
theorem congruence_countP {k : Dense ℝ n n} (symmetric : k.Symmetric) {scale : Vector ℝ n}
    (scale_ne : ∀ i, scale.get i ≠ 0) :
    (congruence k scale).eigenvalues.countP (0 < ·) = k.eigenvalues.countP (0 < ·) ∧
      (congruence k scale).eigenvalues.countP (· < 0) = k.eigenvalues.countP (· < 0) :=
  (congruence_symmetric symmetric scale).countP_eq_of_equivalent symmetric
    (congruence_equivalent k scale_ne)

end Scaling

section Counting

/-- Counting eigenvalues one after another counts each kind. -/
theorem foldl_inertia (threshold : ℝ) (values : List ℝ) (pos neg null : Nat) :
    values.foldl (fun (acc : Inertia) l =>
        if |l| ≤ threshold then { acc with zero := acc.zero + 1 }
        else if 0 < l then { acc with pos := acc.pos + 1 }
        else { acc with neg := acc.neg + 1 }) ⟨pos, neg, null⟩ =
      ⟨pos + values.countP fun l => !decide (|l| ≤ threshold) && decide (0 < l),
       neg + values.countP fun l => !decide (|l| ≤ threshold) && !decide (0 < l),
       null + values.countP fun l => decide (|l| ≤ threshold)⟩ := by
  induction values generalizing pos neg null with
  | nil => simp
  | cons l values ih =>
    rw [List.foldl_cons]
    by_cases small : |l| ≤ threshold
    · simp only [small, if_true]
      rw [ih]
      simp [small]
      omega
    · by_cases positive : 0 < l
      · simp only [small, positive, if_true, if_false]
        rw [ih]
        simp [small, positive]
        omega
      · simp only [small, positive, if_false]
        rw [ih]
        simp [small, positive]
        omega

/-- Magnitude up to which an eigenvalue counts as zero. -/
noncomputable def zeroThreshold (values : List ℝ) : ℝ :=
  1e-13 * max (values.foldl (fun acc l => max acc |l|) 0) 1

theorem zeroThreshold_pos (values : List ℝ) : 0 < zeroThreshold values := by
  rw [zeroThreshold]
  positivity

theorem ofEigenvalues_eq (values : List ℝ) : Inertia.ofEigenvalues values =
    ⟨values.countP fun l => !decide (|l| ≤ zeroThreshold values) && decide (0 < l),
     values.countP fun l => !decide (|l| ≤ zeroThreshold values) && !decide (0 < l),
     values.countP fun l => decide (|l| ≤ zeroThreshold values)⟩ := by
  simp only [Inertia.ofEigenvalues, maxNum_real, magnitude_real, foldl_inertia, Nat.zero_add]
  rfl

/-- Every eigenvalue is counted once. -/
theorem ofEigenvalues_total (values : List ℝ) :
    (Inertia.ofEigenvalues values).pos + (Inertia.ofEigenvalues values).neg
      + (Inertia.ofEigenvalues values).zero = values.length := by
  rw [ofEigenvalues_eq]
  dsimp only
  generalize zeroThreshold values = threshold
  induction values with
  | nil => rfl
  | cons l values ih =>
    by_cases small : |l| ≤ threshold
    · simp [small, ← ih]
      omega
    · by_cases positive : 0 < l
      · simp [small, positive, ← ih]
        omega
      · simp [small, positive, ← ih]
        omega

/-- Eigenvalues within thirteen decades of the largest one, or of one, all count by their sign. -/
theorem ofEigenvalues_regular {values : List ℝ} {low high : ℝ} (one_le : 1 ≤ high)
    (comparable : 1e-13 * high < low) (bounds : ∀ l ∈ values, low ≤ |l| ∧ |l| ≤ high) :
    (Inertia.ofEigenvalues values).zero = 0 := by
  have largest : max (values.foldl (fun acc l => max acc |l|) 0) 1 ≤ high := by
    refine max_le ((foldl_max_le_iff _ _ _ _).mpr ⟨zero_le_one.trans one_le, ?_⟩) one_le
    exact fun l member => (bounds l member).2
  have threshold : zeroThreshold values < low :=
    (mul_le_mul_of_nonneg_left largest (by norm_num)).trans_lt comparable
  rw [ofEigenvalues_eq, List.countP_eq_zero]
  intro l member
  simpa using threshold.trans_le (bounds l member).1

/-- When no eigenvalue counts as zero, none is zero and they all count by their sign. -/
theorem ofEigenvalues_of_regular {values : List ℝ}
    (regular : (Inertia.ofEigenvalues values).zero = 0) :
    (∀ l ∈ values, l ≠ 0) ∧
      (Inertia.ofEigenvalues values).pos = values.countP (0 < ·) ∧
      (Inertia.ofEigenvalues values).neg = values.countP (· < 0) := by
  rw [ofEigenvalues_eq] at regular ⊢
  have large : ∀ l ∈ values, ¬ |l| ≤ zeroThreshold values := by
    simpa using List.countP_eq_zero.mp regular
  have nonzero : ∀ l ∈ values, l ≠ 0 := by
    intro l member vanishes
    apply large l member
    rw [vanishes, abs_zero]
    exact (zeroThreshold_pos values).le
  refine ⟨nonzero, ?_, ?_⟩
  · apply List.countP_congr
    intro l member
    simp [large l member]
  · apply List.countP_congr
    intro l member
    simpa [large l member] using (nonzero l member).le_iff_lt

/-- The three counters of a decomposition add up to the dimension. -/
theorem inertia_total (e : ScaledEigen ℝ n) :
    e.inertia.pos + e.inertia.neg + e.inertia.zero = n := by
  rw [ScaledEigen.inertia, ofEigenvalues_total, Vector.length_toList]

/-- When no value counts as zero, none is zero and the counters go by the signs. -/
theorem inertia_of_regular {e : ScaledEigen ℝ n} (regular : e.inertia.zero = 0) :
    (∀ i, e.eigen.values.get i ≠ 0) ∧
      e.inertia.pos = e.eigen.values.toList.countP (0 < ·) ∧
      e.inertia.neg = e.eigen.values.toList.countP (· < 0) := by
  obtain ⟨nonzero, pos, neg⟩ := ofEigenvalues_of_regular regular
  exact ⟨fun i => nonzero _ (get_mem_toList _ i), pos, neg⟩

end Counting

/-- The solution read off a decomposition, in terms of the scaled system. -/
theorem get_solve (e : ScaledEigen ℝ n) (rhs : Vector ℝ n) :
    (e.solve rhs).get = e.scale.get * (e.eigen.vectors.toMatrixᵀ *ᵥ fun k =>
      e.eigen.coordinate k (e.scale.get * rhs.get) / e.eigen.values.get k) := by
  have scaled : (Vector.zipWith (· * ·) rhs e.scale).get = e.scale.get * rhs.get := by
    ext i
    rw [get_zipWith, Pi.mul_apply, mul_comm]
  have weights : (Vector.zipWith (· / ·)
      (e.eigen.vectors.mulVec (Vector.zipWith (· * ·) rhs e.scale)) e.eigen.values).get =
      fun k => e.eigen.coordinate k (e.scale.get * rhs.get) / e.eigen.values.get k := by
    ext k
    rw [get_zipWith, Dense.get_mulVec_eq, scaled]
    rfl
  ext i
  rw [ScaledEigen.solve, get_zipWith, Dense.get_mulVec_eq, weights, Dense.toMatrix_transpose,
    Pi.mul_apply, mul_comm]

section Factor

variable [solver : DenseSolver ℝ] {k : Dense ℝ n n}

theorem factor_decomposes (exact : EigenExact solver) (symmetric : k.Symmetric) :
    (factor k).eigen.Decomposes (congruence k (factor k).scale) :=
  exact _ (congruence_symmetric symmetric _)

theorem factor_scale_pos (k : Dense ℝ n n) (i : Fin n) : 0 < (factor k).scale.get i :=
  equilibrate_pos k balancingPasses i

/-- Without a zero eigenvalue, the system has the one solution that is computed. -/
theorem factor_solve (exact : EigenExact solver) (symmetric : k.Symmetric)
    (nonzero : ∀ i, (factor k).eigen.values.get i ≠ 0) (rhs : Vector ℝ n) (x : Fin n → ℝ) :
    k.toMatrix *ᵥ x = rhs.get ↔ x = ((factor k).solve rhs).get := by
  have decomposes := factor_decomposes exact symmetric
  have scale_ne : ∀ i, (factor k).scale.get i ≠ 0 := fun i => (factor_scale_pos k i).ne'
  have cancels : (factor k).scale.get * (x / (factor k).scale.get) = x := by
    ext i
    exact mul_div_cancel₀ _ (scale_ne i)
  have scaled : (congruence k (factor k).scale).toMatrix *ᵥ (x / (factor k).scale.get) =
      (factor k).scale.get * (k.toMatrix *ᵥ x) := by
    rw [congruence_mulVec, cancels]
  have unscaled : k.toMatrix *ᵥ x = rhs.get ↔
      (factor k).scale.get * (k.toMatrix *ᵥ x) = (factor k).scale.get * rhs.get := by
    constructor
    · intro solves
      rw [solves]
    · intro solves
      ext i
      exact mul_left_cancel₀ (scale_ne i) (congrFun solves i)
  rw [unscaled, ← scaled,
    decomposes.mulVec_eq_iff (congruence_symmetric symmetric _) nonzero, get_solve]
  constructor
  · intro solution
    rw [← solution, cancels]
  · intro solution
    ext i
    rw [Pi.div_apply, div_eq_iff (scale_ne i), solution, Pi.mul_apply, mul_comm]

/-- The values of the decomposition have the signs of the eigenvalues of the matrix. -/
theorem factor_countP (exact : EigenExact solver) (symmetric : k.Symmetric) :
    (factor k).eigen.values.toList.countP (0 < ·) = k.eigenvalues.countP (0 < ·) ∧
      (factor k).eigen.values.toList.countP (· < 0) = k.eigenvalues.countP (· < 0) := by
  have scaled := (factor_decomposes exact symmetric).eigenvalues_eq
  obtain ⟨pos, neg⟩ := congruence_countP symmetric fun i => (factor_scale_pos k i).ne'
  rw [← pos, ← neg, scaled]
  simp only [Multiset.coe_countP, and_self]

/-- A space with more dimensions than there are negative eigenvalues holds a vector on which the
quadratic form is positive. -/
theorem exists_pos_form (exact : EigenExact solver) (symmetric : k.Symmetric) {pos neg : Nat}
    (inertia : (factor k).inertia = ⟨pos, neg, 0⟩) {E : Type} [AddCommGroup E] [Module ℝ E]
    [FiniteDimensional ℝ E] (L : E →ₗ[ℝ] (Fin n → ℝ)) (injective : Function.Injective L)
    (large : neg < Module.finrank ℝ E) : ∃ x, 0 < L x ⬝ᵥ (k.toMatrix *ᵥ L x) := by
  by_contra nowhere_pos
  have counted : pos = sigPos k.form := by
    obtain ⟨-, by_sign, -⟩ := inertia_of_regular (congrArg Inertia.zero inertia)
    rw [inertia, (factor_countP exact symmetric).1, symmetric.countP_pos] at by_sign
    exact by_sign
  have total := inertia_total (factor k)
  rw [inertia, counted] at total
  have nonpos : ∀ y ∈ LinearMap.range L, k.form y ≤ 0 := by
    rintro - ⟨x, rfl⟩
    rw [Dense.form_apply]
    exact not_lt.mp fun positive => nowhere_pos ⟨x, positive⟩
  have bounded := QuadraticForm.sigPos_add_finrank_le_of_nonpos nonpos
  rw [LinearMap.finrank_range_of_inj injective, Module.finrank_fin_fun] at bounded
  dsimp only at total
  omega

end Factor

section Single

/-- After a balancing pass a single positive entry is scaled to one. -/
theorem balance_single {k : Dense ℝ 1 1} {scale : Vector ℝ 1} (entry_pos : 0 < k.entry 0 0)
    (scale_pos : 0 < scale.get 0) :
    k.entry 0 0 * ((balance k scale).get 0 * (balance k scale).get 0) = 1 := by
  have scaled_pos : 0 < k.entry 0 0 * scale.get 0 * scale.get 0 := by positivity
  have row : scaledRowMax k scale 0 = k.entry 0 0 * scale.get 0 * scale.get 0 := by
    simp only [scaledRowMax, List.finRange_succ, List.finRange_zero, List.map_nil, List.foldl_cons,
      List.foldl_nil, maxNum_real, magnitude_real]
    rw [abs_of_pos scaled_pos, max_eq_right scaled_pos.le]
  have square := Real.mul_self_sqrt scaled_pos.le
  simp only [balance, Vector.get_ofFn, row, if_pos scaled_pos, sqrt_real]
  set root := √(k.entry 0 0 * scale.get 0 * scale.get 0)
  calc k.entry 0 0 * (scale.get 0 * (1 / root) * (scale.get 0 * (1 / root)))
      = k.entry 0 0 * scale.get 0 * scale.get 0 / (root * root) := by ring
    _ = 1 := by rw [square, div_self scaled_pos.ne']

variable [solver : DenseSolver ℝ]

/-- A single positive entry has one positive eigenvalue. -/
theorem factor_single (exact : EigenExact solver) {k : Dense ℝ 1 1} (positive : 0 < k.entry 0 0) :
    (factor k).inertia = ⟨1, 0, 0⟩ := by
  have symmetric : k.Symmetric := by
    intro i j
    rw [Subsingleton.elim i j]
  have decomposed := factor_decomposes exact symmetric
  have value : (factor k).eigen.values.get 0 = 1 := by
    rw [decomposed.value_of_single, congruence, Dense.entry_ofFn]
    exact balance_single positive (equilibrate_pos k 2 0)
  rw [ScaledEigen.inertia, toList_eq_map_get]
  simp [List.finRange_succ, value, Inertia.ofEigenvalues]
  norm_num

theorem factor_single_iff (exact : EigenExact solver) (k : Dense ℝ 1 1) :
    (factor k).inertia = ⟨1, 0, 0⟩ ↔ 0 < k.entry 0 0 := by
  refine ⟨fun positive => ?_, factor_single exact⟩
  obtain ⟨nonzero, -, none_neg⟩ := inertia_of_regular (congrArg Inertia.zero positive)
  rw [positive] at none_neg
  have symmetric : k.Symmetric := by
    intro i j
    rw [Subsingleton.elim i j]
  have value := (factor_decomposes exact symmetric).value_of_single
  rw [congruence, Dense.entry_ofFn] at value
  have none_below : ¬ (factor k).eigen.values.get 0 < 0 := by
    simpa using List.countP_eq_zero.mp none_neg.symm _ (get_mem_toList _ 0)
  have value_pos := lt_of_le_of_ne (not_lt.mp none_below) (nonzero 0).symm
  have scale_pos := factor_scale_pos k 0
  rw [value] at value_pos
  exact pos_of_mul_pos_left value_pos (mul_pos scale_pos scale_pos).le

end Single

section Balanced

variable {k : Dense ℝ n n}

/-- The largest magnitude in every row is one. -/
structure Balanced (k : Dense ℝ n n) : Prop where
  le_one : ∀ i j, |k.entry i j| ≤ 1
  attained : ∀ i, ∃ j, |k.entry i j| = 1

/-- There is nothing to scale. -/
theorem Balanced.equilibrate_eq_one (h : Balanced k) (passes : Nat) (i : Fin n) :
    (equilibrate k passes).get i = 1 := by
  induction passes generalizing i with
  | zero => simp [equilibrate]
  | succ passes ih =>
    have row : scaledRowMax k (equilibrate k passes) i = 1 := by
      have le_iff (bound : ℝ) : scaledRowMax k (equilibrate k passes) i ≤ bound ↔
          0 ≤ bound ∧ ∀ j, |k.entry i j| ≤ bound := by
        simp only [scaledRowMax, maxNum_real, magnitude_real, ih, mul_one]
        rw [foldl_max_le_iff]
        simp
      apply le_antisymm
      · exact (le_iff 1).mpr ⟨zero_le_one, h.le_one i⟩
      · obtain ⟨j, unit⟩ := h.attained i
        exact unit.ge.trans (((le_iff _).mp le_rfl).2 j)
    rw [equilibrate, balance, Vector.get_ofFn]
    simp [row, ih]

variable [solver : DenseSolver ℝ]

/-- A balanced matrix is decomposed as it is. -/
theorem Balanced.decomposes (h : Balanced k) (exact : EigenExact solver) (symmetric : k.Symmetric) :
    (factor k).eigen.Decomposes k := by
  have unscaled : (congruence k (factor k).scale).toMatrix = k.toMatrix := by
    ext i j
    simp only [Dense.toMatrix_apply, congruence, Dense.entry_ofFn, factor, h.equilibrate_eq_one,
      mul_one]
  obtain ⟨orthonormal, eigen⟩ := factor_decomposes exact symmetric
  rw [unscaled] at eigen
  exact ⟨orthonormal, eigen⟩

/-- No eigenvalue of a balanced matrix counts as zero when solutions do not grow too much. -/
theorem Balanced.regular (h : Balanced k) (exact : EigenExact solver) (symmetric : k.Symmetric)
    (nonempty : 1 ≤ n) {growth : ℝ} (growth_pos : 0 < growth)
    (stable : ∀ (v : Fin n → ℝ) b, (∀ i, |(k.toMatrix *ᵥ v) i| ≤ b) → ∀ i, |v i| ≤ growth * b)
    (moderate : 1e-13 * n * growth < 1) : (factor k).inertia.zero = 0 := by
  have decomposes := h.decomposes exact symmetric
  have comparable : 1e-13 * (n : ℝ) < 1 / growth := by
    rwa [lt_div_iff₀ growth_pos]
  refine ofEigenvalues_regular (by exact_mod_cast nonempty) comparable ?_
  rw [toList_eq_map_get]
  simp only [List.forall_mem_map, List.mem_finRange, true_imp_iff]
  intro i
  refine ⟨?_, ?_⟩
  · rw [div_le_iff₀' growth_pos]
    exact decomposes.one_le_mul_abs_value stable i
  · rw [← mul_one (n : ℝ)]
    exact decomposes.abs_value_le h.le_one i

end Balanced

end SmoothOpt.Newton
