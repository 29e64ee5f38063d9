import Mathlib
import SmoothOpt.Linear.Solver
import SmoothOpt.Proofs.Linear.Entries

/-!
Exact factorizations.

`SymEigen.Decomposes` is the contract of a symmetric eigendecomposition: the vectors are
orthonormal and belong to the values. `EigenExact` asks it of a solver on every symmetric matrix.
From the contract alone follow the expansion of a vector in the eigenvectors, that of the quadratic
form in the eigenvalues, trace and determinant, and bounds on the eigenvalues. `PositiveExact` asks that every positive
definite system is solved. `exactSolver` shows that both contracts can be met.
-/
namespace SmoothOpt.Linear

open Matrix

variable {m n : Nat}

namespace Dense

def toMatrix (a : Dense ℝ m n) : Matrix (Fin m) (Fin n) ℝ := Matrix.of a.entry

@[simp] theorem toMatrix_apply (a : Dense ℝ m n) (i : Fin m) (j : Fin n) :
    a.toMatrix i j = a.entry i j := rfl

@[simp] theorem toMatrix_ofFn (f : Fin m → Fin n → ℝ) : (ofFn f).toMatrix = Matrix.of f := by
  ext i j
  simp

theorem toMatrix_transpose (a : Dense ℝ m n) : a.transpose.toMatrix = a.toMatrixᵀ := by
  ext i j
  simp [transpose]

theorem toMatrix_add (a b : Dense ℝ m n) : (a.add b).toMatrix = a.toMatrix + b.toMatrix := by
  ext i j
  exact entry_add a b i j

theorem toMatrix_mul {k : Nat} (a : Dense ℝ m k) (b : Dense ℝ k n) :
    (a.mul b).toMatrix = a.toMatrix * b.toMatrix := by
  ext i j
  exact entry_mul a b i j

theorem toMatrix_diagonal (v : Vector ℝ n) : (diagonal v).toMatrix = Matrix.diagonal v.get := by
  ext i j
  simp [diagonal, Matrix.diagonal_apply]

theorem get_mulVec_eq (a : Dense ℝ m n) (v : Vector ℝ n) :
    (a.mulVec v).get = a.toMatrix *ᵥ v.get := by
  ext i
  rw [get_mulVec]
  rfl

def Symmetric (a : Dense ℝ n n) : Prop := ∀ i j, a.entry i j = a.entry j i

theorem Symmetric.isSymm {a : Dense ℝ n n} (h : a.Symmetric) : a.toMatrix.IsSymm := by
  ext i j
  exact h j i

end Dense

namespace SymEigen

/-- Orthonormal eigenvectors of `a`, each with its eigenvalue. -/
structure Decomposes (e : SymEigen ℝ n) (a : Dense ℝ n n) : Prop where
  orthonormal : e.vectors.toMatrix * e.vectors.toMatrixᵀ = 1
  eigen : ∀ k, a.toMatrix *ᵥ e.vectors.toMatrix k = e.values.get k • e.vectors.toMatrix k

variable {e : SymEigen ℝ n} {a : Dense ℝ n n}

def coordinate (e : SymEigen ℝ n) (k : Fin n) (x : Fin n → ℝ) : ℝ := e.vectors.toMatrix k ⬝ᵥ x

theorem Decomposes.complete (h : e.Decomposes a) :
    e.vectors.toMatrixᵀ * e.vectors.toMatrix = 1 := mul_eq_one_comm.mp h.orthonormal

/-- A vector is the sum of its components along the eigenvectors. -/
theorem Decomposes.expand (h : e.Decomposes a) (x : Fin n → ℝ) :
    e.vectors.toMatrixᵀ *ᵥ (e.vectors.toMatrix *ᵥ x) = x := by
  rw [mulVec_mulVec, h.complete, one_mulVec]

/-- Coordinates determine a vector. -/
theorem Decomposes.ext (h : e.Decomposes a) {x y : Fin n → ℝ}
    (same : ∀ k, e.coordinate k x = e.coordinate k y) : x = y := by
  have images : e.vectors.toMatrix *ᵥ x = e.vectors.toMatrix *ᵥ y := by
    ext k
    exact same k
  rw [← h.expand x, images, h.expand y]

/-- The matrix multiplies each coordinate by its eigenvalue. -/
theorem Decomposes.coordinate_mulVec (h : e.Decomposes a) (symmetric : a.Symmetric) (k : Fin n)
    (x : Fin n → ℝ) : e.coordinate k (a.toMatrix *ᵥ x) = e.values.get k * e.coordinate k x := by
  have moved : e.vectors.toMatrix k ᵥ* a.toMatrix = a.toMatrix *ᵥ e.vectors.toMatrix k := by
    rw [← mulVec_transpose, symmetric.isSymm.eq]
  rw [coordinate, dotProduct_mulVec, moved, h.eigen, smul_dotProduct, smul_eq_mul]
  rfl

/-- Combining the eigenvectors with given coefficients gives a vector with these coordinates. -/
theorem Decomposes.coordinate_combine (h : e.Decomposes a) (w : Fin n → ℝ) (k : Fin n) :
    e.coordinate k (e.vectors.toMatrixᵀ *ᵥ w) = w k := by
  have back : e.vectors.toMatrix *ᵥ (e.vectors.toMatrixᵀ *ᵥ w) = w := by
    rw [mulVec_mulVec, h.orthonormal, one_mulVec]
  exact congrFun back k

/-- Without a zero eigenvalue, a system has the one solution with divided coordinates. -/
theorem Decomposes.mulVec_eq_iff (h : e.Decomposes a) (symmetric : a.Symmetric)
    (nonzero : ∀ k, e.values.get k ≠ 0) (u c : Fin n → ℝ) :
    a.toMatrix *ᵥ u = c ↔
      u = e.vectors.toMatrixᵀ *ᵥ fun k => e.coordinate k c / e.values.get k := by
  constructor
  · intro solves
    apply h.ext
    intro k
    rw [h.coordinate_combine, ← solves, h.coordinate_mulVec symmetric,
      mul_div_cancel_left₀ _ (nonzero k)]
  · rintro rfl
    apply h.ext
    intro k
    rw [h.coordinate_mulVec symmetric, h.coordinate_combine, mul_div_cancel₀ _ (nonzero k)]

/-- Inner products are those of the coordinates. -/
theorem Decomposes.dotProduct_eq (h : e.Decomposes a) (x y : Fin n → ℝ) :
    x ⬝ᵥ y = ∑ k, e.coordinate k x * e.coordinate k y := by
  have expanded : x ⬝ᵥ y = (e.vectors.toMatrix *ᵥ x) ⬝ᵥ (e.vectors.toMatrix *ᵥ y) := by
    rw [dotProduct_mulVec, vecMul_mulVec, h.complete, vecMul_one]
  rw [expanded]
  rfl

/-- The quadratic form is diagonal in the coordinates. -/
theorem Decomposes.form (h : e.Decomposes a) (symmetric : a.Symmetric) (x : Fin n → ℝ) :
    x ⬝ᵥ (a.toMatrix *ᵥ x) = ∑ k, e.values.get k * e.coordinate k x ^ 2 := by
  rw [h.dotProduct_eq]
  apply Finset.sum_congr rfl
  intro k _
  rw [h.coordinate_mulVec symmetric]
  ring

/-- The matrix is put together from eigenvalues and eigenvectors. -/
theorem Decomposes.toMatrix_eq (h : e.Decomposes a) :
    a.toMatrix = e.vectors.toMatrixᵀ * (diagonal e.values.get * e.vectors.toMatrix) := by
  have columns : a.toMatrix * e.vectors.toMatrixᵀ =
      e.vectors.toMatrixᵀ * diagonal e.values.get := by
    ext i k
    rw [mul_diagonal, transpose_apply, mul_comm]
    exact congrFun (h.eigen k) i
  rw [← Matrix.mul_assoc, ← columns, Matrix.mul_assoc, h.complete, Matrix.mul_one]

theorem Decomposes.trace_eq (h : e.Decomposes a) : a.toMatrix.trace = ∑ k, e.values.get k := by
  rw [h.toMatrix_eq, trace_mul_comm, Matrix.mul_assoc, h.orthonormal, Matrix.mul_one,
    trace_diagonal]

theorem Decomposes.det_eq (h : e.Decomposes a) : a.toMatrix.det = ∏ k, e.values.get k := by
  rw [h.toMatrix_eq, det_mul_comm, Matrix.mul_assoc, h.orthonormal, Matrix.mul_one, det_diagonal]

/-- An eigenvector has an entry of largest magnitude, and it is not zero. -/
theorem Decomposes.exists_largest (h : e.Decomposes a) (k : Fin n) :
    ∃ i, 0 < |e.vectors.toMatrix k i| ∧ ∀ j, |e.vectors.toMatrix k j| ≤ |e.vectors.toMatrix k i| := by
  have unit : e.vectors.toMatrix k ⬝ᵥ e.vectors.toMatrix k = 1 := by
    have diagonal := congrFun (congrFun h.orthonormal k) k
    rwa [one_apply_eq] at diagonal
  have : Nonempty (Fin n) := ⟨k⟩
  obtain ⟨i, largest⟩ := Finite.exists_max fun j => |e.vectors.toMatrix k j|
  refine ⟨i, (abs_nonneg _).lt_of_ne ?_, largest⟩
  intro vanishes
  have none : ∀ j, e.vectors.toMatrix k j = 0 := fun j =>
    abs_nonpos_iff.mp ((largest j).trans vanishes.ge)
  simp only [dotProduct, none, mul_zero, Finset.sum_const_zero, zero_ne_one] at unit

/-- No eigenvalue is larger than the entries allow. -/
theorem Decomposes.abs_value_le (h : e.Decomposes a) {bound : ℝ}
    (entries : ∀ i j, |a.entry i j| ≤ bound) (k : Fin n) : |e.values.get k| ≤ n * bound := by
  obtain ⟨i, positive, largest⟩ := h.exists_largest k
  have row := congrFun (h.eigen k) i
  rw [Pi.smul_apply, smul_eq_mul] at row
  refine le_of_mul_le_mul_right ?_ positive
  calc |e.values.get k| * |e.vectors.toMatrix k i|
      = |∑ j, a.entry i j * e.vectors.toMatrix k j| := by
        rw [← abs_mul, ← row]
        rfl
    _ ≤ ∑ j, |a.entry i j * e.vectors.toMatrix k j| := Finset.abs_sum_le_sum_abs _ _
    _ ≤ ∑ _j : Fin n, bound * |e.vectors.toMatrix k i| := by
        gcongr with j
        rw [abs_mul]
        exact mul_le_mul (entries i j) (largest j) (abs_nonneg _)
          ((abs_nonneg _).trans (entries i j))
    _ = n * bound * |e.vectors.toMatrix k i| := by
        rw [Finset.sum_const, Finset.card_univ, Fintype.card_fin, nsmul_eq_mul, mul_assoc]

/-- No eigenvalue is smaller than the growth of solutions allows. -/
theorem Decomposes.one_le_mul_abs_value (h : e.Decomposes a) {growth : ℝ}
    (stable : ∀ (v : Fin n → ℝ) b, (∀ i, |(a.toMatrix *ᵥ v) i| ≤ b) → ∀ i, |v i| ≤ growth * b)
    (k : Fin n) : 1 ≤ growth * |e.values.get k| := by
  obtain ⟨i, positive, largest⟩ := h.exists_largest k
  have image : ∀ j, |(a.toMatrix *ᵥ e.vectors.toMatrix k) j| ≤
      |e.values.get k| * |e.vectors.toMatrix k i| := by
    intro j
    rw [h.eigen, Pi.smul_apply, smul_eq_mul, abs_mul]
    exact mul_le_mul_of_nonneg_left (largest j) (abs_nonneg _)
  refine le_of_mul_le_mul_right ?_ positive
  rw [one_mul, mul_assoc]
  exact stable _ _ image i

end SymEigen

/-- The solver decomposes every symmetric matrix exactly. -/
def EigenExact (solver : DenseSolver ℝ) : Prop :=
  ∀ {n : Nat} (a : Dense ℝ n n), a.Symmetric → (solver.eigen a).Decomposes a

/-- The solver factors every positive definite matrix and solves with it exactly. -/
def PositiveExact (solver : DenseSolver ℝ) : Prop :=
  ∀ {n : Nat} (a : Dense ℝ n n) (b : Vector ℝ n), a.toMatrix.PosDef →
    ∃ y, solver.solvePositive a b = some y ∧ a.toMatrix *ᵥ y.get = b.get

/-- The eigenvalue of a single entry is the entry. -/
theorem SymEigen.Decomposes.value_of_single {e : SymEigen ℝ 1} {a : Dense ℝ 1 1}
    (h : e.Decomposes a) : e.values.get 0 = a.entry 0 0 := by
  have trace := h.trace_eq
  rw [trace_fin_one, Fin.sum_univ_one] at trace
  exact trace.symm

namespace Exact

open Classical in
/-- A symmetric matrix is decomposed by the spectral theorem. -/
noncomputable def exactEigen (a : Dense ℝ n n) : SymEigen ℝ n :=
  if h : a.toMatrix.IsHermitian then
    ⟨Vector.ofFn h.eigenvalues, Dense.ofFn fun k i => h.eigenvectorBasis k i⟩
  else ⟨Vector.replicate n 0, Dense.identity⟩

open Classical in
/-- Factorizations in exact arithmetic. -/
noncomputable scoped instance exactSolver : DenseSolver ℝ where
  eigen := exactEigen
  solvePositive a b :=
    if a.toMatrix.PosDef then some (Vector.ofFn (a.toMatrix⁻¹ *ᵥ b.get)) else none

theorem exactSolver_exact : EigenExact exactSolver := by
  intro n a symmetric
  have h : a.toMatrix.IsHermitian := by
    ext i j
    exact symmetric j i
  have eigen : exactSolver.eigen a =
      ⟨Vector.ofFn h.eigenvalues, Dense.ofFn fun k i => h.eigenvectorBasis k i⟩ := dif_pos h
  rw [eigen]
  constructor
  · ext k l
    have inner := h.eigenvectorBasis.inner_eq_ite l k
    simp only [PiLp.inner_apply, RCLike.inner_apply, conj_trivial] at inner
    simp only [Dense.toMatrix_ofFn, mul_apply, transpose_apply, of_apply, one_apply]
    rw [inner]
    simp only [eq_comm]
  · intro k
    simp only [Dense.toMatrix_ofFn, Vector.get_ofFn]
    exact h.mulVec_eigenvectorBasis k

theorem exactSolver_positive : PositiveExact exactSolver := by
  intro n a b definite
  refine ⟨Vector.ofFn (a.toMatrix⁻¹ *ᵥ b.get), if_pos definite, ?_⟩
  rw [get_ofFn_eq, mulVec_mulVec, mul_nonsing_inv _ definite.det_pos.ne'.isUnit, one_mulVec]

end Exact

end SmoothOpt.Linear
