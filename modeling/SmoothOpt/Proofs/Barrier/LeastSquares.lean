import Mathlib
import SmoothOpt.Barrier.Multipliers
import SmoothOpt.Proofs.Barrier.Errors
import SmoothOpt.Proofs.Linear.Spectral

/-!
The least-squares multipliers and the stationarity they leave.

The stationarity vectors of an iterate depend on its constraint multipliers `y` through
`b + J̃ᵀ y`, where `J̃` stacks the Jacobians beside the `-I` of the inequality slacks. The estimate
solves the normal equations of the penalized problem `min ‖b + J̃ᵀ y‖² + ε ‖y‖²`, whose matrix is
positive definite whatever the rank of the Jacobians. So there is always an estimate, and it is the
only minimizer.
-/
namespace SmoothOpt

open Scalar Linear Matrix

section Ridge

variable {m k : Nat} {J : Matrix (Fin m) (Fin k) ℝ} {b : Fin k → ℝ} {ε : ℝ} {y z w : Fin m → ℝ}

/-- Squared length of `b + Jᵀ y`, with a penalty on the length of `y`. -/
def ridge (J : Matrix (Fin m) (Fin k) ℝ) (b : Fin k → ℝ) (ε : ℝ) (y : Fin m → ℝ) : ℝ :=
  (b + Jᵀ *ᵥ y) ⬝ᵥ (b + Jᵀ *ᵥ y) + ε * (y ⬝ᵥ y)

/-- The matrix of the normal equations is definite even where the rows of `J` are dependent. -/
theorem normal_posDef (J : Matrix (Fin m) (Fin k) ℝ) (positive : 0 < ε) :
    (J * Jᵀ + Matrix.diagonal fun _ => ε).PosDef := by
  have gram : (J * Jᵀ).PosSemidef := by
    simpa using posSemidef_self_mul_conjTranspose J
  exact .posSemidef_add gram (.diagonal fun _ => positive)

/-- At a solution of the normal equations the linear part of the penalized error vanishes, and what
is left at another point is the quadratic part. -/
theorem ridge_add_of_normal (solves : (J * Jᵀ + Matrix.diagonal fun _ => ε) *ᵥ y = -(J *ᵥ b)) :
    ridge J b ε (y + w) =
      ridge J b ε y + ((Jᵀ *ᵥ w) ⬝ᵥ (Jᵀ *ᵥ w) + ε * (w ⬝ᵥ w)) := by
  have balance : J *ᵥ (b + Jᵀ *ᵥ y) + ε • y = 0 := by
    rw [add_mulVec, ← mulVec_mulVec, diagonal_const_mulVec] at solves
    rw [mulVec_add, add_assoc, solves, add_neg_cancel]
  have linear : (b + Jᵀ *ᵥ y) ⬝ᵥ (Jᵀ *ᵥ w) + ε * (y ⬝ᵥ w) = 0 := by
    rw [dotProduct_mulVec, vecMul_transpose, ← smul_eq_mul, ← smul_dotProduct, ← add_dotProduct,
      balance, zero_dotProduct]
  have regrouped : b + Jᵀ *ᵥ (y + w) = (b + Jᵀ *ᵥ y) + Jᵀ *ᵥ w := by
    rw [mulVec_add, add_assoc]
  rw [ridge, ridge, regrouped]
  generalize b + Jᵀ *ᵥ y = r at linear ⊢
  simp only [add_dotProduct, dotProduct_add, dotProduct_comm w y, dotProduct_comm (Jᵀ *ᵥ w) r]
  linarith

theorem ridge_lt_of_normal (positive : 0 < ε)
    (solves : (J * Jᵀ + Matrix.diagonal fun _ => ε) *ᵥ y = -(J *ᵥ b)) (other : z ≠ y) :
    ridge J b ε y < ridge J b ε z := by
  have moved : z = y + (z - y) := by abel
  have image : 0 ≤ (Jᵀ *ᵥ (z - y)) ⬝ᵥ (Jᵀ *ᵥ (z - y)) := by
    simpa using dotProduct_self_star_nonneg (Jᵀ *ᵥ (z - y))
  have distance : 0 < (z - y) ⬝ᵥ (z - y) := by
    simpa using dotProduct_self_star_pos_iff.mpr (sub_ne_zero.mpr other)
  rw [moved, ridge_add_of_normal solves]
  linarith [mul_pos positive distance]

end Ridge

variable {n m : Nat} {d : Dims}

def Linear.squaredLength (v : Vector ℝ n) : ℝ := ∑ i, v.get i ^ 2

theorem Linear.squaredLength_nonneg (v : Vector ℝ n) : 0 ≤ squaredLength v :=
  Finset.sum_nonneg fun _ _ => sq_nonneg _

theorem Linear.squaredLength_append (v : Vector ℝ m) (w : Vector ℝ n) :
    squaredLength v + squaredLength w = (v ++ w).get ⬝ᵥ (v ++ w).get := by
  simp [squaredLength, dotProduct, Fin.sum_univ_add, sq]

def Residual.stationarity (r : Residual ℝ d) : ℝ := squaredLength r.rx + squaredLength r.rs

section Stationarity

variable (e : Evaluation ℝ d)

theorem extendedJacobian_entry_eq (r : Fin d.mEq) :
    (∀ i : Fin d.n, (extendedJacobian e).entry (r.castAdd d.mIneq) (i.castAdd d.mIneq) =
      e.jacEq.entry r i) ∧
    ∀ j : Fin d.mIneq, (extendedJacobian e).entry (r.castAdd d.mIneq) (j.natAdd d.n) = 0 := by
  constructor
  · intro i
    simp [extendedJacobian, Dense.entry]
  · intro j
    simp [extendedJacobian, Dense.entry]

theorem extendedJacobian_entry_ineq (r : Fin d.mIneq) :
    (∀ i : Fin d.n, (extendedJacobian e).entry (r.natAdd d.mEq) (i.castAdd d.mIneq) =
      e.jacIneq.entry r i) ∧
    ∀ j : Fin d.mIneq, (extendedJacobian e).entry (r.natAdd d.mEq) (j.natAdd d.n) =
      if j = r then -1 else 0 := by
  constructor
  · intro i
    simp [extendedJacobian, Dense.entry]
  · intro j
    simp [extendedJacobian, Dense.entry]

/-- The stationarity vectors as a function of the constraint multipliers. -/
theorem stationarity_vectors (it : Iterate ℝ d) (b : Bounds ℝ d) (mu pSmax : ℝ)
    (y : Vector ℝ d.mEq × Vector ℝ d.mIneq) :
    let r := Residual.compute (it.withConstraintMultipliers y) e b mu pSmax
    (r.rx ++ r.rs).get =
      (unmatchedGradient e it b).get + (extendedJacobian e).toMatrixᵀ *ᵥ (y.1 ++ y.2).get := by
  intro r
  funext i
  simp only [Pi.add_apply, mulVec, dotProduct, transpose_apply, Dense.toMatrix_apply,
    Fin.sum_univ_add, get_append_castAdd, get_append_natAdd]
  cases i using Fin.addCases with
  | left i =>
    have terms := Block.get_pull_sub b.x (e.lagrangianGradient y.1 y.2) e.grad it.x.multLo
      it.x.multHi i
    have gradient : (e.lagrangianGradient y.1 y.2).get i = e.grad.get i +
        ∑ r, e.jacEq.entry r i * y.1.get r + ∑ r, e.jacIneq.entry r i * y.2.get r := by
      simp only [Evaluation.lagrangianGradient, Dense.get_addTransposeProduct]
    simp only [(extendedJacobian_entry_eq e _).1, (extendedJacobian_entry_ineq e _).1,
      unmatchedGradient, get_append_castAdd]
    change (Block.pull b.x (e.lagrangianGradient y.1 y.2) it.x.multLo it.x.multHi).get i = _
    linarith
  | right j =>
    have terms := Block.get_pull_sub b.s (y.2.map (-·)) (Vector.replicate _ 0) it.s.multLo
      it.s.multHi j
    simp only [Vector.get_map, Vector.get_replicate] at terms
    simp only [(extendedJacobian_entry_eq e _).2, (extendedJacobian_entry_ineq e _).2,
      unmatchedGradient, get_append_natAdd, zero_mul, Finset.sum_const_zero, ite_mul, neg_one_mul,
      Finset.sum_ite_eq, Finset.mem_univ, if_true]
    change (Block.pull b.s (y.2.map (-·)) it.s.multLo it.s.multHi).get j = _
    linarith

/-- The penalized stationarity error of the multipliers is that of the least-squares problem. -/
theorem stationarity_eq_ridge (it : Iterate ℝ d) (b : Bounds ℝ d) (mu pSmax : ℝ)
    (y : Vector ℝ d.mEq × Vector ℝ d.mIneq) :
    (Residual.compute (it.withConstraintMultipliers y) e b mu pSmax).stationarity +
        normalShift * (squaredLength y.1 + squaredLength y.2) =
      ridge (extendedJacobian e).toMatrix (unmatchedGradient e it b).get normalShift
        (y.1 ++ y.2).get := by
  rw [Residual.stationarity, squaredLength_append, squaredLength_append, stationarity_vectors,
    ridge]

end Stationarity

section Estimate

variable [solver : DenseSolver ℝ]

/-- An exact solver has an estimate for every constrained problem, the solution of the normal
equations. -/
theorem lsqEstimate_normal (exact : PositiveExact solver) (constrained : d.m ≠ 0)
    (e : Evaluation ℝ d) (it : Iterate ℝ d) (b : Bounds ℝ d) :
    ∃ y, lsqEstimate e it b = some y ∧
      ((extendedJacobian e).toMatrix * (extendedJacobian e).toMatrixᵀ +
          Matrix.diagonal fun _ => normalShift) *ᵥ (y.1 ++ y.2).get =
        -((extendedJacobian e).toMatrix *ᵥ (unmatchedGradient e it b).get) := by
  set J := extendedJacobian e with jacobian
  have normal : ((J.mul J.transpose).add
      (Dense.diagonal (Vector.replicate _ normalShift))).toMatrix =
      J.toMatrix * J.toMatrixᵀ + Matrix.diagonal fun _ => normalShift := by
    rw [Dense.toMatrix_add, Dense.toMatrix_mul, Dense.toMatrix_transpose, Dense.toMatrix_diagonal]
    congr
    funext i
    exact Vector.get_replicate _ _ i
  have definite := normal_posDef J.toMatrix (show (0 : ℝ) < normalShift by norm_num [normalShift])
  rw [← normal] at definite ⊢
  obtain ⟨y, solved, solves⟩ := exact _ ((J.mulVec (unmatchedGradient e it b)).map (-·)) definite
  refine ⟨(firstPart y, lastPart y), ?_, ?_⟩
  · rw [lsqEstimate, if_neg constrained]
    simp only [← jacobian, solved, allFinite_real, if_true]
  · rw [append_parts, solves, ← Dense.get_mulVec_eq]
    funext i
    exact Vector.get_map _ _ i

/-- Without general constraints there is nothing to estimate. -/
theorem lsqEstimate_unconstrained (free : d.m = 0) (e : Evaluation ℝ d) (it : Iterate ℝ d)
    (b : Bounds ℝ d) (y : Vector ℝ d.mEq × Vector ℝ d.mIneq) : lsqEstimate e it b = some y := by
  have sizes : d.mEq = 0 ∧ d.mIneq = 0 := Nat.add_eq_zero_iff.mp free
  have : IsEmpty (Fin d.mEq) := by rw [sizes.1]; infer_instance
  have : IsEmpty (Fin d.mIneq) := by rw [sizes.2]; infer_instance
  rw [lsqEstimate, if_pos free]
  exact congrArg some (Prod.ext (ext_get isEmptyElim) (ext_get isEmptyElim))

/-- Every other choice of the multipliers has a larger penalized stationarity error. -/
theorem lsqEstimate_least (exact : PositiveExact solver) (e : Evaluation ℝ d) (it : Iterate ℝ d)
    (b : Bounds ℝ d) :
    ∃ y, lsqEstimate e it b = some y ∧
      ∀ (mu pSmax : ℝ) (z : Vector ℝ d.mEq × Vector ℝ d.mIneq), z ≠ y →
        (Residual.compute (it.withConstraintMultipliers y) e b mu pSmax).stationarity +
            normalShift * (squaredLength y.1 + squaredLength y.2) <
          (Residual.compute (it.withConstraintMultipliers z) e b mu pSmax).stationarity +
            normalShift * (squaredLength z.1 + squaredLength z.2) := by
  by_cases free : d.m = 0
  · have estimated := lsqEstimate_unconstrained free e it b
    refine ⟨_, estimated (it.yc, it.yd), fun mu pSmax z other => absurd ?_ other⟩
    exact Option.some_inj.mp ((estimated z).symm.trans (estimated _))
  · obtain ⟨y, estimated, solves⟩ := lsqEstimate_normal exact free e it b
    refine ⟨y, estimated, fun mu pSmax z other => ?_⟩
    rw [stationarity_eq_ridge, stationarity_eq_ridge]
    apply ridge_lt_of_normal (by norm_num [normalShift]) solves
    intro same
    have joined : z.1 ++ z.2 = y.1 ++ y.2 := ext_get (congrFun same)
    exact other (Prod.ext_iff.mpr (Vector.append_inj joined))

/-- With an exact solver the least-squares estimate exists at every iterate, whatever the rank of
the Jacobians, and no other multipliers reach its penalized stationarity error. So a refresh by
least squares never falls back to the Newton step, and the squared length of the stationarity
vectors it leaves exceeds that of any other multipliers by the penalty of these at most. -/
theorem lsq_minimizes_stationarity (exact : PositiveExact solver) (e : Evaluation ℝ d)
    (it : Iterate ℝ d) (b : Bounds ℝ d) :
    ∃ y, lsqEstimate e it b = some y ∧
      (∀ (mu pSmax : ℝ) (z : Vector ℝ d.mEq × Vector ℝ d.mIneq), z ≠ y →
        (Residual.compute (it.withConstraintMultipliers y) e b mu pSmax).stationarity +
            1e-12 * (squaredLength y.1 + squaredLength y.2) <
          (Residual.compute (it.withConstraintMultipliers z) e b mu pSmax).stationarity +
            1e-12 * (squaredLength z.1 + squaredLength z.2)) ∧
      ∀ (dir : Direction ℝ d) (alpha : ℝ),
        it.refreshMultipliers .lsq e b dir alpha = (it.withConstraintMultipliers y, false) ∧
        ∀ (mu pSmax : ℝ) (z : Vector ℝ d.mEq × Vector ℝ d.mIneq),
          (Residual.compute (it.refreshMultipliers .lsq e b dir alpha).1 e b mu
              pSmax).stationarity ≤
            (Residual.compute (it.withConstraintMultipliers z) e b mu pSmax).stationarity +
              1e-12 * (squaredLength z.1 + squaredLength z.2) := by
  obtain ⟨y, estimated, least⟩ := lsqEstimate_least exact e it b
  refine ⟨y, estimated, least, fun dir alpha => ?_⟩
  have refreshed : it.refreshMultipliers .lsq e b dir alpha =
      (it.withConstraintMultipliers y, false) := by
    simp only [Iterate.refreshMultipliers, estimated]
  refine ⟨refreshed, fun mu pSmax z => ?_⟩
  rw [refreshed]
  have penalty : (0 : ℝ) ≤ 1e-12 * (squaredLength y.1 + squaredLength y.2) := by
    have := squaredLength_nonneg y.1
    have := squaredLength_nonneg y.2
    positivity
  rcases eq_or_ne z y with rfl | other
  · linarith
  · have larger := least mu pSmax z other
    rw [normalShift] at larger
    linarith

end Estimate

namespace Dependent

open Exact

/-- Two equalities with one gradient, and an inequality with the same one. -/
noncomputable def evaluation : Evaluation ℝ ⟨1, 2, 1⟩ :=
  { Evaluation.blank with
    grad := .replicate _ 1
    jacEq := .replicate _ (.replicate _ 1)
    jacIneq := .replicate _ (.replicate _ 1) }

def bounds : Bounds ℝ ⟨1, 2, 1⟩ where
  x := ⟨.replicate _ ⟨0, true⟩, .replicate _ ⟨0, false⟩⟩
  s := ⟨.replicate _ ⟨0, false⟩, .replicate _ ⟨0, false⟩⟩
  relaxedFixed := 0

/-- The multiplier of the lower bound is given, all else is zero. -/
noncomputable def iterate (multiplier : ℝ) : Iterate ℝ ⟨1, 2, 1⟩ :=
  { Iterate.zero with x := { Block.zero with multLo := .replicate _ multiplier } }

theorem lengths : squaredLength (n := 2) #v[2, 0] = 4 ∧ squaredLength (n := 1) #v[0] = 0 := by
  constructor
  · norm_num [squaredLength, Fin.sum_univ_two, Vector.get_eq_getElem]
  · norm_num [squaredLength, Vector.get_eq_getElem]

/-- The multiplier of one of the equalities balances that of the bound. -/
theorem balanced : (Residual.compute ((iterate 3).withConstraintMultipliers (#v[2, 0], #v[0]))
    evaluation bounds 0 1).stationarity = 0 := by
  have gradient : (evaluation.lagrangianGradient #v[2, 0] #v[0]).get 0 = 3 := by
    rw [Evaluation.lagrangianGradient, Dense.get_addTransposeProduct, Dense.get_addTransposeProduct,
      Fin.sum_univ_one, Fin.sum_univ_two]
    norm_num [Dense.entry, Vector.get_eq_getElem, evaluation]
  change squaredLength (n := 1) (Block.pull bounds.x (evaluation.lagrangianGradient #v[2, 0] #v[0])
      (iterate 3).x.multLo (iterate 3).x.multHi) +
    squaredLength (n := 1) (Block.pull bounds.s (Vector.map (-·) #v[0])
      (iterate 3).s.multLo (iterate 3).s.multHi) = 0
  simp only [squaredLength, Fin.sum_univ_one, Block.pull, pulled, Vector.get_ofFn]
  rw [gradient]
  norm_num [Vector.get_eq_getElem, bounds, iterate, Iterate.zero, Block.zero]

/-- Dependent gradients have an estimate, and it is nearly as good as the multipliers that balance
the bound. -/
theorem dependent_gradients_estimated :
    PositiveExact exactSolver ∧ ∃ y, lsqEstimate evaluation (iterate 3) bounds = some y ∧
      (Residual.compute ((iterate 3).withConstraintMultipliers y) evaluation bounds 0
        1).stationarity ≤ 4e-12 := by
  obtain ⟨y, estimated, -, refreshed⟩ :=
    lsq_minimizes_stationarity exactSolver_positive evaluation (iterate 3) bounds
  obtain ⟨taken, near⟩ := refreshed Direction.zero 1
  refine ⟨exactSolver_positive, y, estimated, ?_⟩
  have bound := near 0 1 (#v[2, 0], #v[0])
  rw [taken, balanced, lengths.1, lengths.2] at bound
  exact bound.trans (by norm_num)

end Dependent

end SmoothOpt
