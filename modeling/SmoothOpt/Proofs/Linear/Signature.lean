import Mathlib
import SmoothOpt.Proofs.Linear.Spectral

/-!
Eigenvalues with their multiplicities, and the signature of the quadratic form.

The eigenvalues of a matrix are the roots of its characteristic polynomial, so they do not depend
on a decomposition: every exact one has these values, each as often as its multiplicity. A
decomposition of a symmetric matrix also turns its quadratic form into a weighted sum of squares.
By Sylvester's law of inertia the numbers of positive and of negative eigenvalues are therefore
those of the form, and forms that differ by a change of variables share them.
-/
namespace SmoothOpt.Linear

open Matrix

variable {n : Nat}

namespace Dense

/-- The eigenvalues, each as often as its multiplicity. -/
noncomputable def eigenvalues (a : Dense ℝ n n) : Multiset ℝ := a.toMatrix.charpoly.roots

noncomputable def form (a : Dense ℝ n n) : QuadraticForm ℝ (Fin n → ℝ) :=
  a.toMatrix.toQuadraticForm'

theorem form_apply (a : Dense ℝ n n) (x : Fin n → ℝ) : a.form x = x ⬝ᵥ (a.toMatrix *ᵥ x) := by
  rw [form, toQuadraticForm', LinearMap.BilinMap.toQuadraticMap_apply, toLinearMap₂'_apply']

end Dense

namespace SymEigen

variable {e : SymEigen ℝ n} {a : Dense ℝ n n}

open Polynomial in
theorem Decomposes.charpoly_eq (h : e.Decomposes a) :
    a.toMatrix.charpoly = ∏ k, (X - C (e.values.get k)) := by
  rw [h.toMatrix_eq, charpoly_mul_comm, Matrix.mul_assoc, h.orthonormal, Matrix.mul_one,
    charpoly_diagonal]

/-- The values of a decomposition are the eigenvalues with their multiplicities. -/
theorem Decomposes.eigenvalues_eq (h : e.Decomposes a) : a.eigenvalues = e.values.toList := by
  have nonzero : ∏ k, (Polynomial.X - Polynomial.C (e.values.get k)) ≠ 0 :=
    Finset.prod_ne_zero_iff.mpr fun k _ => Polynomial.X_sub_C_ne_zero _
  rw [Dense.eigenvalues, h.charpoly_eq, Polynomial.roots_prod _ _ nonzero]
  simp only [Polynomial.roots_X_sub_C, Multiset.bind_singleton]
  rw [toList_eq_map_get, ← Multiset.map_coe]
  rfl

theorem Decomposes.countP_eq (h : e.Decomposes a) (p : ℝ → Prop) [DecidablePred p] :
    a.eigenvalues.countP p = {k | p (e.values.get k)}.ncard := by
  rw [h.eigenvalues_eq, Multiset.coe_countP, countP_toList, Fintype.card_subtype,
    Set.ncard_eq_toFinset_card']
  simp

/-- In the coordinates along the eigenvectors, the form is a sum of squares weighted with the
eigenvalues. -/
theorem Decomposes.form_equivalent (h : e.Decomposes a) (symmetric : a.Symmetric) :
    a.form.Equivalent (QuadraticMap.weightedSumSquares ℝ e.values.get) := by
  refine ⟨⟨toLin'OfInv h.complete h.orthonormal, fun x => ?_⟩⟩
  rw [QuadraticMap.weightedSumSquares_apply, Dense.form_apply, h.form symmetric]
  apply Finset.sum_congr rfl
  intro k _
  rw [smul_eq_mul, ← pow_two]
  rfl

end SymEigen

namespace Dense

variable {a b : Dense ℝ n n}

open Exact in
/-- The number of positive eigenvalues is the largest dimension on which the form is positive. -/
theorem Symmetric.countP_pos (symmetric : a.Symmetric) :
    a.eigenvalues.countP (0 < ·) = sigPos a.form := by
  have decomposes := exactSolver_exact a symmetric
  rw [decomposes.countP_eq, QuadraticForm.sigPos_of_equiv_weightedSumSquares
    (decomposes.form_equivalent symmetric)]

open Exact in
/-- The number of negative eigenvalues is the largest dimension on which the form is negative. -/
theorem Symmetric.countP_neg (symmetric : a.Symmetric) :
    a.eigenvalues.countP (· < 0) = sigNeg a.form := by
  have decomposes := exactSolver_exact a symmetric
  rw [decomposes.countP_eq, QuadraticForm.sigNeg_of_equiv_weightedSumSquares
    (decomposes.form_equivalent symmetric)]

/-- A change of variables keeps both numbers. -/
theorem Symmetric.countP_eq_of_equivalent (symmetric : a.Symmetric) (symmetric' : b.Symmetric)
    (equivalent : a.form.Equivalent b.form) :
    a.eigenvalues.countP (0 < ·) = b.eigenvalues.countP (0 < ·) ∧
      a.eigenvalues.countP (· < 0) = b.eigenvalues.countP (· < 0) := by
  rw [symmetric.countP_pos, symmetric'.countP_pos, symmetric.countP_neg, symmetric'.countP_neg]
  exact ⟨equivalent.sigPos_eq, equivalent.sigNeg_eq⟩

/-- A space on which the form vanishes leaves that many dimensions less for each sign. -/
theorem Symmetric.countP_le_of_isotropic (symmetric : a.Symmetric)
    {V : Submodule ℝ (Fin n → ℝ)} (vanishes : ∀ x ∈ V, a.form x = 0) :
    a.eigenvalues.countP (0 < ·) + Module.finrank ℝ V ≤ n ∧
      a.eigenvalues.countP (· < 0) + Module.finrank ℝ V ≤ n := by
  rw [symmetric.countP_pos, symmetric.countP_neg, ← sigPos_neg]
  have whole : Module.finrank ℝ (Fin n → ℝ) = n := Module.finrank_fin_fun ℝ
  refine ⟨?_, ?_⟩
  · refine (QuadraticForm.sigPos_add_finrank_le_of_nonpos ?_).trans_eq whole
    exact fun x member => (vanishes x member).le
  · refine (QuadraticForm.sigPos_add_finrank_le_of_nonpos ?_).trans_eq whole
    intro x member
    change -a.form x ≤ 0
    rw [vanishes x member, neg_zero]

end Dense

end SmoothOpt.Linear
