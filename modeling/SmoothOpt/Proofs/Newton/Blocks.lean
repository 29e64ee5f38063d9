import Mathlib
import SmoothOpt.Newton.System
import SmoothOpt.Proofs.Newton.Spectrum

/-!
The Newton system in blocks.

The matrix of the system, row by row, is a block matrix over the primal indices (variables and
inequality slacks) and the dual ones (equalities and inequalities):

    H    J̃ᵀ
    J̃   -δc I

with `J̃ = [Jc 0; Jd -I]`. A solve that succeeds has factored this matrix with the shifts it reports
and has found the inertia of a descent-producing system. So its answer is the one solution of the
block system, and without a dual shift `J̃` has full row rank and `H` is positive definite on the
null space of `J̃`.
-/
namespace SmoothOpt.Newton

open Scalar Linear Matrix

section Attempts

variable {α : Type} [Scalar α] {d : Dims} {data : Data α d} {r : Regularization α}
  {st : ShiftMemory α}

theorem finish_ok {e : ScaledEigen α (size d)} {deltaW deltaC : α} {sol : Solution α d}
    (h : finish data e deltaW deltaC = .ok sol) :
    allFinite (e.solve data.rhs).toList = true ∧
      sol = .ofVector (e.solve data.rhs) deltaW deltaC := by
  unfold finish at h
  dsimp only at h
  split at h
  · rename_i regular
    cases h
    exact ⟨regular, rfl⟩
  · cases h

variable [DenseSolver α]

/-- A raised shift comes with the decomposition of the matrix it belongs to. -/
theorem raiseShift_found {deltaC : α} (budget : Nat) :
    ∀ {start deltaW : α} {e : ScaledEigen α (size d)},
      (raiseShift r st data deltaC budget start).1 = some (deltaW, e) →
      e = factor (data.matrix deltaW deltaC) ∧ e.inertia = targetInertia d := by
  induction budget with
  | zero =>
    intro start deltaW e h
    cases h
  | succ budget ih =>
    intro start deltaW e h
    rw [raiseShift] at h
    split at h
    · rename_i fits
      cases h
      exact ⟨rfl, fits⟩
    · dsimp only at h
      split at h
      · cases h
      · exact ih h

/-- The decomposition to start from is that of the matrix with the dual shift alone. -/
theorem unraised_eq (r : Regularization α) (data : Data α d) :
    (unraised r data).2 = factor (data.matrix 0 (unraised r data).1) := by
  unfold unraised
  dsimp only
  split
  · rfl
  · rfl

/-- A successful solve has factored the matrix with the shifts it reports, the inertia fitted, and
the solution is finite. -/
theorem solve_ok {sol : Solution α d} (h : (solve r st data).result = .ok sol) :
    (factor (data.matrix sol.deltaW sol.deltaC)).inertia = targetInertia d ∧
      allFinite ((factor (data.matrix sol.deltaW sol.deltaC)).solve data.rhs).toList = true ∧
      sol = .ofVector ((factor (data.matrix sol.deltaW sol.deltaC)).solve data.rhs)
        sol.deltaW sol.deltaC := by
  unfold solve at h
  split at h
  · cases h
  · rcases plain : unraised r data with ⟨deltaC, e⟩
    have factored : e = factor (data.matrix 0 deltaC) := by
      have pair := unraised_eq r data
      rw [plain] at pair
      exact pair
    simp only [plain] at h
    split at h
    · rename_i fits
      obtain ⟨regular, rfl⟩ := finish_ok h
      subst factored
      exact ⟨fits, regular, rfl⟩
    · split at h
      · cases h
      · rename_i deltaW raised rejected found
        obtain ⟨rfl, fits⟩ := raiseShift_found (r.budget st) (congrArg Prod.fst found)
        obtain ⟨regular, rfl⟩ := finish_ok h
        exact ⟨fits, regular, rfl⟩

end Attempts

section Blocks

variable {d : Dims}

/-- Variables and inequality slacks. -/
abbrev Primal (d : Dims) := Fin d.n ⊕ Fin d.mIneq

/-- Equalities and inequalities. -/
abbrev Dual (d : Dims) := Fin d.mEq ⊕ Fin d.mIneq

/-- The place of an index among the unknowns. -/
def position (d : Dims) : Primal d ⊕ Dual d ≃ Fin (size d) :=
  (Equiv.sumAssoc (Primal d) (Fin d.mEq) (Fin d.mIneq)).symm.trans <|
    ((((finSumFinEquiv.sumCongr (Equiv.refl _)).trans finSumFinEquiv).sumCongr
      (Equiv.refl _)).trans finSumFinEquiv)

@[simp] theorem position_x (i : Fin d.n) : position d (.inl (.inl i)) =
    ((i.castAdd d.mIneq).castAdd d.mEq).castAdd d.mIneq := rfl

@[simp] theorem position_s (j : Fin d.mIneq) : position d (.inl (.inr j)) =
    ((j.natAdd d.n).castAdd d.mEq).castAdd d.mIneq := rfl

@[simp] theorem position_eq (r : Fin d.mEq) : position d (.inr (.inl r)) =
    (r.natAdd (d.n + d.mIneq)).castAdd d.mIneq := rfl

@[simp] theorem position_ineq (r : Fin d.mIneq) : position d (.inr (.inr r)) =
    r.natAdd (d.n + d.mIneq + d.mEq) := rfl

namespace Data

/-- `H = diag(W + Σx + δw I, Σs + δw I)`. -/
def primalBlock (data : Data ℝ d) (deltaW : ℝ) : Matrix (Primal d) (Primal d) ℝ :=
  fromBlocks (data.hess.toMatrix + diagonal (data.sigmaX.get) + deltaW • 1) 0 0
    (diagonal (data.sigmaS.get) + deltaW • 1)

/-- `J̃ = [Jc 0; Jd -I]`. -/
def jacobian (data : Data ℝ d) : Matrix (Dual d) (Primal d) ℝ :=
  fromBlocks data.jacEq.toMatrix 0 data.jacIneq.toMatrix (-1)

def blocks (data : Data ℝ d) (deltaW deltaC : ℝ) :
    Matrix (Primal d ⊕ Dual d) (Primal d ⊕ Dual d) ℝ :=
  fromBlocks (data.primalBlock deltaW) data.jacobianᵀ data.jacobian (-(deltaC • 1))

/-- The rows of the matrix are those of the blocks. -/
theorem matrix_eq_blocks (data : Data ℝ d) (deltaW deltaC : ℝ) :
    (data.matrix deltaW deltaC).toMatrix.submatrix (position d) (position d) =
      data.blocks deltaW deltaC := by
  ext a b
  rcases a with (i | j) | (r | r) <;> rcases b with (i' | j') | (r' | r') <;>
    simp only [submatrix_apply, Dense.toMatrix_apply, Dense.entry, matrix, position_x, position_s,
      position_eq, position_ineq, get_append_castAdd, get_append_natAdd, Vector.get_ofFn,
      get_zipWith, Vector.get_replicate, get_spike, Dense.column, Vector.get_map, blocks,
      primalBlock, jacobian, fromBlocks_apply₁₁, fromBlocks_apply₁₂, fromBlocks_apply₂₁,
      fromBlocks_apply₂₂, transpose_apply]
  -- the blocks that are full agree by now; the rest are zero or diagonal
  · by_cases same : i = i' <;> simp [Dense.entry, same, one_apply, Ne.symm]
    ring
  · simp
  · simp
  · by_cases same : j = j' <;> simp [same, one_apply, eq_comm]
  · simp
  · by_cases same : r' = j <;> simp [same, one_apply]
  · simp
  · by_cases same : r = r' <;> simp [same, one_apply, eq_comm]
  · simp
  · by_cases same : r = j' <;> simp [same, one_apply, eq_comm]
  · simp
  · by_cases same : r = r' <;> simp [same, one_apply, eq_comm]

theorem blocks_isSymm {data : Data ℝ d} (symmetric : data.hess.Symmetric) (deltaW deltaC : ℝ) :
    (data.blocks deltaW deltaC).IsSymm := by
  have primal : (data.primalBlock deltaW)ᵀ = data.primalBlock deltaW := by
    simp only [primalBlock, fromBlocks_transpose, transpose_add, transpose_smul, transpose_one,
      transpose_zero, diagonal_transpose, symmetric.isSymm.eq]
  have dual : (-(deltaC • (1 : Matrix (Dual d) (Dual d) ℝ)))ᵀ = -(deltaC • 1) := by
    rw [transpose_neg, transpose_smul, transpose_one]
  rw [Matrix.IsSymm, blocks, fromBlocks_transpose, primal, dual, transpose_transpose]

theorem matrix_symmetric {data : Data ℝ d} (symmetric : data.hess.Symmetric) (deltaW deltaC : ℝ) :
    (data.matrix deltaW deltaC).Symmetric := by
  intro i j
  obtain ⟨a, rfl⟩ := (position d).surjective i
  obtain ⟨b, rfl⟩ := (position d).surjective j
  have entry := fun a b => congrFun (congrFun (data.matrix_eq_blocks deltaW deltaC) a) b
  have forth := entry a b
  have back := entry b a
  rw [submatrix_apply] at forth back
  rw [← Dense.toMatrix_apply, ← Dense.toMatrix_apply, forth, back]
  exact (blocks_isSymm symmetric deltaW deltaC).apply b a

/-- Without constraints there is nothing for a dual shift to act on. -/
theorem matrix_of_unconstrained {n : Nat} (data : Data ℝ ⟨n, 0, 0⟩) (deltaW deltaC : ℝ) :
    data.matrix deltaW deltaC = data.matrix deltaW 0 := by
  unfold matrix
  dsimp only
  congr 1

def rhsPrimal (data : Data ℝ d) : Primal d → ℝ := Sum.elim data.rhsX.get data.rhsS.get

def rhsDual (data : Data ℝ d) : Dual d → ℝ := Sum.elim data.rhsEq.get data.rhsIneq.get

theorem rhs_position (data : Data ℝ d) :
    data.rhs.get ∘ position d = Sum.elim data.rhsPrimal data.rhsDual := by
  ext a
  rcases a with (i | j) | (r | r) <;>
    simp only [Function.comp_apply, rhs, rhsPrimal, rhsDual, Sum.elim_inl, Sum.elim_inr, position_x,
      position_s, position_eq, position_ineq, get_append_castAdd, get_append_natAdd]

def placed (p : Primal d → ℝ) (q : Dual d → ℝ) : Fin (size d) → ℝ :=
  Sum.elim p q ∘ (position d).symm

theorem placed_position (p : Primal d → ℝ) (q : Dual d → ℝ) :
    placed p q ∘ position d = Sum.elim p q := by
  rw [placed, Function.comp_assoc, Equiv.symm_comp_self, Function.comp_id]

/-- The multiples of a primal vector and all dual vectors in their places. -/
def placeAlong (p : Primal d → ℝ) : (ℝ × (Dual d → ℝ)) →ₗ[ℝ] (Fin (size d) → ℝ) where
  toFun v := placed (v.1 • p) v.2
  map_add' v w := by
    ext i
    rcases at_i : (position d).symm i with a | a <;> simp [placed, at_i, add_mul]
  map_smul' t v := by
    ext i
    rcases at_i : (position d).symm i with a | a <;> simp [placed, at_i, mul_assoc]

theorem placeAlong_injective {p : Primal d → ℝ} (p_ne : p ≠ 0) :
    Function.Injective (placeAlong p) := by
  rw [injective_iff_map_eq_zero]
  intro v vanishes
  have parts : Sum.elim (v.1 • p) v.2 = 0 := by
    rw [← placed_position]
    change placeAlong p v ∘ position d = 0
    rw [vanishes]
    rfl
  have first : v.1 • p = 0 := funext fun a => congrFun parts (.inl a)
  have second : v.2 = 0 := funext fun a => congrFun parts (.inr a)
  exact Prod.ext ((smul_eq_zero.mp first).resolve_right p_ne) second

def placeDual (d : Dims) : (Dual d → ℝ) →ₗ[ℝ] (Fin (size d) → ℝ) :=
  placeAlong 0 ∘ₗ LinearMap.inr ℝ ℝ (Dual d → ℝ)

theorem placeDual_injective (d : Dims) : Function.Injective (placeDual d) := by
  intro q q' same
  have parts := congrArg (· ∘ position d) same
  change placed _ q ∘ position d = placed _ q' ∘ position d at parts
  rw [placed_position, placed_position, Sum.elim_eq_iff] at parts
  exact parts.2

theorem matrix_mulVec_placed (data : Data ℝ d) (deltaW deltaC : ℝ) (p : Primal d → ℝ)
    (q : Dual d → ℝ) :
    ((data.matrix deltaW deltaC).toMatrix *ᵥ placed p q) ∘ position d =
      Sum.elim (data.primalBlock deltaW *ᵥ p + data.jacobianᵀ *ᵥ q)
        (data.jacobian *ᵥ p - deltaC • q) := by
  rw [placed, ← submatrix_mulVec_equiv, matrix_eq_blocks, blocks, fromBlocks_mulVec]
  simp only [Sum.elim_comp_inl, Sum.elim_comp_inr, neg_mulVec, smul_mulVec, one_mulVec,
    sub_eq_add_neg]

/-- A vector solves the system when its parts solve the block equations. -/
theorem mulVec_eq_rhs_iff (data : Data ℝ d) (deltaW deltaC : ℝ) (p : Primal d → ℝ)
    (q : Dual d → ℝ) :
    (data.matrix deltaW deltaC).toMatrix *ᵥ placed p q = data.rhs.get ↔
      data.primalBlock deltaW *ᵥ p + data.jacobianᵀ *ᵥ q = data.rhsPrimal ∧
        data.jacobian *ᵥ p - deltaC • q = data.rhsDual := by
  rw [← (position d).surjective.injective_comp_right.eq_iff, rhs_position, matrix_mulVec_placed,
    Sum.elim_eq_iff]

/-- The primal equations, row by row. -/
theorem primalRows_iff (data : Data ℝ d) (deltaW : ℝ) (dx : Fin d.n → ℝ) (ds : Fin d.mIneq → ℝ)
    (dyc : Fin d.mEq → ℝ) (dyd : Fin d.mIneq → ℝ) :
    data.primalBlock deltaW *ᵥ Sum.elim dx ds + data.jacobianᵀ *ᵥ Sum.elim dyc dyd =
        data.rhsPrimal ↔
      (∀ i, ∑ j, data.hess.entry i j * dx j + data.sigmaX.get i * dx i + deltaW * dx i
        + (∑ r, data.jacEq.entry r i * dyc r + ∑ r, data.jacIneq.entry r i * dyd r) =
          data.rhsX.get i) ∧
      ∀ j, data.sigmaS.get j * ds j + deltaW * ds j - dyd j = data.rhsS.get j := by
  rw [primalBlock, jacobian, fromBlocks_transpose, fromBlocks_mulVec, fromBlocks_mulVec, rhsPrimal,
    ← Sum.elim_add_add, Sum.elim_eq_iff, funext_iff, funext_iff]
  refine and_congr (forall_congr' fun i => ?_) (forall_congr' fun j => ?_)
  · simp only [Sum.elim_comp_inl, Sum.elim_comp_inr, add_mulVec, smul_mulVec, one_mulVec,
      zero_mulVec, Pi.add_apply, Pi.smul_apply, smul_eq_mul, mulVec_diagonal, add_zero]
    rfl
  · simp only [Sum.elim_comp_inl, Sum.elim_comp_inr, add_mulVec, smul_mulVec, one_mulVec,
      zero_mulVec, neg_mulVec, Pi.add_apply, Pi.smul_apply, Pi.neg_apply, smul_eq_mul,
      mulVec_diagonal, zero_add, transpose_zero, transpose_neg, transpose_one, sub_eq_add_neg]

/-- The dual equations, row by row. -/
theorem dualRows_iff (data : Data ℝ d) (deltaC : ℝ) (dx : Fin d.n → ℝ) (ds : Fin d.mIneq → ℝ)
    (dyc : Fin d.mEq → ℝ) (dyd : Fin d.mIneq → ℝ) :
    data.jacobian *ᵥ Sum.elim dx ds - deltaC • Sum.elim dyc dyd = data.rhsDual ↔
      (∀ r, ∑ i, data.jacEq.entry r i * dx i - deltaC * dyc r = data.rhsEq.get r) ∧
      ∀ r, ∑ i, data.jacIneq.entry r i * dx i - ds r - deltaC * dyd r = data.rhsIneq.get r := by
  rw [jacobian, fromBlocks_mulVec, rhsDual, ← Sum.elim_comp_inl_inr (_ - _), Sum.elim_eq_iff,
    funext_iff, funext_iff]
  refine and_congr (forall_congr' fun r => ?_) (forall_congr' fun r => ?_)
  · simp only [Function.comp_apply, Pi.sub_apply, Pi.smul_apply, Sum.elim_inl, Sum.elim_comp_inl,
      Sum.elim_comp_inr, zero_mulVec, add_zero, smul_eq_mul]
    rfl
  · simp only [Function.comp_apply, Pi.sub_apply, Pi.smul_apply, Sum.elim_inr, Sum.elim_comp_inl,
      Sum.elim_comp_inr, neg_mulVec, one_mulVec, smul_eq_mul, ← sub_eq_add_neg]
    rfl

/-- The quadratic form on the null space of the extended Jacobian, without a dual shift. -/
theorem matrix_form_of_null {data : Data ℝ d} (deltaW : ℝ) {p : Primal d → ℝ} (q : Dual d → ℝ)
    (null : data.jacobian *ᵥ p = 0) :
    placed p q ⬝ᵥ ((data.matrix deltaW 0).toMatrix *ᵥ placed p q) =
      p ⬝ᵥ (data.primalBlock deltaW *ᵥ p) := by
  have crossed : p ⬝ᵥ (data.jacobianᵀ *ᵥ q) = 0 := by
    rw [dotProduct_mulVec, vecMul_transpose, null, zero_dotProduct]
  change (Sum.elim p q ∘ (position d).symm) ⬝ᵥ _ = _
  rw [comp_equiv_symm_dotProduct, matrix_mulVec_placed, sumElim_dotProduct_sumElim, null, zero_smul,
    sub_zero, dotProduct_zero, add_zero, dotProduct_add, crossed, add_zero]

end Data

namespace Solution

def primal (sol : Solution ℝ d) : Primal d → ℝ := Sum.elim sol.dx.get sol.ds.get

def dual (sol : Solution ℝ d) : Dual d → ℝ := Sum.elim sol.dyc.get sol.dyd.get

theorem ofVector_position (v : Vector ℝ (size d)) (deltaW deltaC : ℝ) :
    v.get ∘ position d =
      Sum.elim (ofVector v deltaW deltaC).primal (ofVector v deltaW deltaC).dual := by
  ext a
  rcases a with (i | j) | (r | r) <;>
    simp only [Function.comp_apply, ofVector, primal, dual, Sum.elim_inl, Sum.elim_inr, position_x,
      position_s, position_eq, position_ineq, get_firstPart, get_lastPart]

end Solution

variable [solver : DenseSolver ℝ] {data : Data ℝ d} {r : Regularization ℝ} {st : ShiftMemory ℝ}
  {sol : Solution ℝ d}

/-- A matrix with the right inertia is not shifted. -/
theorem solve_of_inertia (r : Regularization ℝ) (st : ShiftMemory ℝ)
    (fits : (factor (data.matrix 0 0)).inertia = targetInertia d) :
    (solve r st data).result =
      .ok (.ofVector ((factor (data.matrix 0 0)).solve data.rhs) 0 0) := by
  have plain : unraised r data = (0, factor (data.matrix 0 0)) := by
    simp [unraised, fits, targetInertia]
  have finished : finish data (factor (data.matrix 0 0)) 0 0 =
      .ok (.ofVector ((factor (data.matrix 0 0)).solve data.rhs) 0 0) := by
    simp [finish]
  simp [solve, Data.isFinite, plain, fits, finished]

/-- A matrix that the first shift corrects is shifted by it, and the memory counts that. -/
theorem solve_of_first_shift (r : Regularization ℝ) (st : ShiftMemory ℝ)
    (unfit : (unraised r data).2.inertia ≠ targetInertia d)
    (fits : (factor (data.matrix (r.firstShift st) (unraised r data).1)).inertia =
      targetInertia d) :
    ∃ sol, sol.deltaW = r.firstShift st ∧ (solve r st data).result = .ok sol ∧
      (solve r st data).memory = st.bumped (r.firstShift st) := by
  obtain ⟨budget, some_left⟩ : ∃ budget, r.budget st = budget + 1 := ⟨_, rfl⟩
  have raised : raiseShift r st data (unraised r data).1 (r.budget st) (r.firstShift st) =
      (some (r.firstShift st, factor (data.matrix (r.firstShift st) (unraised r data).1)), []) := by
    rw [some_left, raiseShift]
    exact if_pos fits
  have solved : solve r st data = ⟨finish data
      (factor (data.matrix (r.firstShift st) (unraised r data).1)) (r.firstShift st)
      (unraised r data).1, st.bumped (r.firstShift st), []⟩ := by
    simp [solve, Data.isFinite, unfit, raised]
  rw [solved]
  refine ⟨.ofVector ((factor (data.matrix (r.firstShift st) (unraised r data).1)).solve data.rhs)
    (r.firstShift st) (unraised r data).1, rfl, ?_, rfl⟩
  simp [finish]

/-- With as many equalities as variables the inertia fits as soon as no eigenvalue counts as zero:
the form vanishes on the dual vectors, which make up half of all dimensions. -/
theorem inertia_of_square (exact : EigenExact solver) (symmetric : data.hess.Symmetric)
    (square : d.mEq = d.n) {deltaW : ℝ}
    (regular : (factor (data.matrix deltaW 0)).inertia.zero = 0) :
    (factor (data.matrix deltaW 0)).inertia = targetInertia d := by
  have vanishes : ∀ y ∈ LinearMap.range (Data.placeDual d), (data.matrix deltaW 0).form y = 0 := by
    rintro - ⟨q, rfl⟩
    rw [Dense.form_apply]
    change Data.placed ((0 : ℝ) • 0) q ⬝ᵥ (_ *ᵥ Data.placed ((0 : ℝ) • 0) q) = 0
    rw [smul_zero, Data.matrix_form_of_null deltaW q (mulVec_zero _), zero_dotProduct]
  have dimension : Module.finrank ℝ (LinearMap.range (Data.placeDual d)) = d.mEq + d.mIneq := by
    rw [LinearMap.finrank_range_of_inj (Data.placeDual_injective d),
      Module.finrank_fintype_fun_eq_card, Fintype.card_sum, Fintype.card_fin, Fintype.card_fin]
  have balanced := Data.matrix_symmetric symmetric deltaW 0
  obtain ⟨few_pos, few_neg⟩ := balanced.countP_le_of_isotropic vanishes
  obtain ⟨same_pos, same_neg⟩ := factor_countP exact balanced
  obtain ⟨-, pos, neg⟩ := inertia_of_regular regular
  have total := inertia_total (factor (data.matrix deltaW 0))
  have unknowns : size d = d.n + d.mIneq + d.mEq + d.mIneq := rfl
  rw [dimension, ← same_pos, ← pos] at few_pos
  rw [dimension, ← same_neg, ← neg] at few_neg
  have plus : (factor (data.matrix deltaW 0)).inertia.pos = d.n + d.mIneq := by omega
  have minus : (factor (data.matrix deltaW 0)).inertia.neg = d.mEq + d.mIneq := by omega
  exact congr (congrArg₂ Inertia.mk plus minus) regular

/-- The answer of a successful solve is the one solution of the block equations with the shifts it
reports. -/
theorem solve_iff (exact : EigenExact solver) (symmetric : data.hess.Symmetric)
    (solved : (solve r st data).result = .ok sol) (p : Primal d → ℝ) (q : Dual d → ℝ) :
    (data.primalBlock sol.deltaW *ᵥ p + data.jacobianᵀ *ᵥ q = data.rhsPrimal ∧
      data.jacobian *ᵥ p - sol.deltaC • q = data.rhsDual) ↔ p = sol.primal ∧ q = sol.dual := by
  obtain ⟨fits, -, read⟩ := solve_ok solved
  have nonzero := (inertia_of_regular (congrArg Inertia.zero fits)).1
  rw [← Data.mulVec_eq_rhs_iff,
    factor_solve exact (Data.matrix_symmetric symmetric sol.deltaW sol.deltaC) nonzero,
    ← (position d).surjective.injective_comp_right.eq_iff,
    Solution.ofVector_position _ sol.deltaW sol.deltaC, ← read, Data.placed_position,
    Sum.elim_eq_iff]

/-- Without a dual shift the extended Jacobian has full row rank. -/
theorem jacobian_rank (exact : EigenExact solver) (symmetric : data.hess.Symmetric)
    (solved : (solve r st data).result = .ok sol) (unshifted : sol.deltaC = 0) :
    data.jacobian.rank = d.mEq + d.mIneq := by
  have injective : Function.Injective fun y => y ᵥ* data.jacobian := by
    rw [← coe_vecMulLinear, injective_iff_map_eq_zero]
    intro y null
    rw [vecMulLinear_apply, ← mulVec_transpose] at null
    -- adding `y` to the dual part of the solution gives another one
    obtain ⟨primal, dual⟩ := (solve_iff exact symmetric solved _ _).mpr ⟨rfl, rfl⟩
    have shifted := (solve_iff exact symmetric solved sol.primal (sol.dual + y)).mp ⟨by
      rw [mulVec_add, null, add_zero]
      exact primal, by
      rw [unshifted, zero_smul] at dual ⊢
      exact dual⟩
    exact add_eq_left.mp shifted.2
  rw [vecMul_injective_iff] at injective
  rw [injective.rank_matrix, Fintype.card_sum, Fintype.card_fin, Fintype.card_fin]

/-- A matrix of the right inertia without a dual shift has a primal block that is positive definite
on the null space of the extended Jacobian. -/
theorem primalBlock_pos_of_inertia (exact : EigenExact solver) (symmetric : data.hess.Symmetric)
    {deltaW : ℝ} (fits : (factor (data.matrix deltaW 0)).inertia = targetInertia d)
    {p : Primal d → ℝ} (p_ne : p ≠ 0) (null : data.jacobian *ᵥ p = 0) :
    0 < p ⬝ᵥ (data.primalBlock deltaW *ᵥ p) := by
  by_contra not_pos
  have large : d.mEq + d.mIneq < Module.finrank ℝ (ℝ × (Dual d → ℝ)) := by
    rw [Module.finrank_prod, Module.finrank_self, Module.finrank_fintype_fun_eq_card,
      Fintype.card_sum, Fintype.card_fin, Fintype.card_fin]
    omega
  -- the multiples of `p` and all dual vectors span a space on which the form is nowhere positive
  obtain ⟨v, positive⟩ := exists_pos_form exact (Data.matrix_symmetric symmetric deltaW 0) fits
    (Data.placeAlong p) (Data.placeAlong_injective p_ne) large
  have null_multiple : data.jacobian *ᵥ (v.1 • p) = 0 := by
    rw [mulVec_smul, null, smul_zero]
  change 0 < Data.placed (v.1 • p) v.2 ⬝ᵥ (_ *ᵥ Data.placed (v.1 • p) v.2) at positive
  rw [Data.matrix_form_of_null deltaW v.2 null_multiple, mulVec_smul, smul_dotProduct,
    dotProduct_smul, smul_eq_mul, smul_eq_mul, ← mul_assoc] at positive
  have bounded := mul_nonneg (mul_self_nonneg v.1) (neg_nonneg.mpr (not_lt.mp not_pos))
  linarith

/-- Without a dual shift the primal block is positive definite on the null space of the extended
Jacobian. -/
theorem primalBlock_pos (exact : EigenExact solver) (symmetric : data.hess.Symmetric)
    (solved : (solve r st data).result = .ok sol) (unshifted : sol.deltaC = 0)
    {p : Primal d → ℝ} (p_ne : p ≠ 0) (null : data.jacobian *ᵥ p = 0) :
    0 < p ⬝ᵥ (data.primalBlock sol.deltaW *ᵥ p) := by
  obtain ⟨fits, -⟩ := solve_ok solved
  rw [unshifted] at fits
  exact primalBlock_pos_of_inertia exact symmetric fits p_ne null

/-- Without constraints a solve leaves a positive definite primal block, whatever its dual shift. -/
theorem primalBlock_pos_of_unconstrained {n : Nat} {data : Data ℝ ⟨n, 0, 0⟩}
    {sol : Solution ℝ ⟨n, 0, 0⟩} (exact : EigenExact solver) (symmetric : data.hess.Symmetric)
    (solved : (solve r st data).result = .ok sol) {p : Primal ⟨n, 0, 0⟩ → ℝ} (p_ne : p ≠ 0) :
    0 < p ⬝ᵥ (data.primalBlock sol.deltaW *ᵥ p) := by
  obtain ⟨fits, -⟩ := solve_ok solved
  rw [data.matrix_of_unconstrained] at fits
  exact primalBlock_pos_of_inertia exact symmetric fits p_ne (Subsingleton.elim _ _)

end Blocks

end SmoothOpt.Newton
