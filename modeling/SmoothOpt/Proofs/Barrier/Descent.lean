import Mathlib
import SmoothOpt.Proofs.Barrier.FullSystem
import SmoothOpt.Proofs.Barrier.Ray

/-!
The search direction descends the barrier objective at a feasible point.

A solve without a dual shift leaves a primal block that is positive definite on the null space of
the extended Jacobian. At a feasible point the primal part of the direction lies in this null space.
There the multipliers drop out of the primal equations, and what remains is that the slope along the
direction is the negative of the quadratic form of the primal block.
-/
namespace SmoothOpt

open Scalar Linear Matrix

variable {n : Nat} {d : Dims}

/-- The terms of the logarithms do not depend on the gradient they are added to. -/
theorem Block.get_barrierPull_sub (k : Block ℝ n) (b : Box ℝ n) (base base' : Vector ℝ n) (mu : ℝ)
    (i : Fin n) : (k.barrierPull b base mu).get i - (k.barrierPull b base' mu).get i =
      base.get i - base'.get i :=
  get_pull_sub b base base' _ _ i

/-- Gradient of the barrier objective in the variables and the inequality slacks. -/
noncomputable def barrierGradient (e : Evaluation ℝ d) (it : Iterate ℝ d) (b : Bounds ℝ d)
    (mu : ℝ) : Newton.Primal d → ℝ :=
  Sum.elim (it.x.barrierPull b.x e.grad mu).get
    (it.s.barrierPull b.s (Vector.replicate _ 0) mu).get

theorem barrierSlope_eq (e : Evaluation ℝ d) (it : Iterate ℝ d) (dir : Direction ℝ d)
    (b : Bounds ℝ d) (mu : ℝ) :
    barrierSlope e it dir b mu = barrierGradient e it b mu ⬝ᵥ dir.primal := by
  rw [barrierSlope, Dense.foldl_products, barrierGradient, Direction.primal,
    sumElim_dotProduct_sumElim]
  rfl

/-- A point with zero violation meets every constraint. -/
theorem violation_eq_zero {e : Evaluation ℝ d} {it : Iterate ℝ d} (h : violation e it = 0) :
    (∀ r, e.eq.get r = 0) ∧ ∀ r, it.s.point.get r - e.ineq.get r = 0 := by
  rw [violation, oneNorm_toList, oneNorm_toList] at h
  have first : 0 ≤ ∑ r, |e.eq.get r| := Finset.sum_nonneg fun _ _ => abs_nonneg _
  have second : 0 ≤ ∑ r, |(Vector.zipWith (· - ·) e.ineq it.s.point).get r| :=
    Finset.sum_nonneg fun _ _ => abs_nonneg _
  rw [add_eq_zero_iff_of_nonneg first second, Finset.sum_eq_zero_iff_of_nonneg (by simp),
    Finset.sum_eq_zero_iff_of_nonneg (by simp)] at h
  constructor
  · intro r
    exact abs_eq_zero.mp (h.1 r (Finset.mem_univ r))
  · intro r
    have entry := abs_eq_zero.mp (h.2 r (Finset.mem_univ r))
    rw [get_zipWith] at entry
    linarith

namespace Barrier

variable {σ : Type} {c : Setup ℝ σ d} {s s' : State ℝ σ d}

/-- The primal right-hand side is the opposite of the gradient of the barrier objective, with the
constraint multipliers added through the extended Jacobian. -/
theorem newtonData_rhsPrimal (s : State ℝ σ d) (c : Setup ℝ σ d) :
    (s.newtonData c).rhsPrimal = -(barrierGradient s.eval s.curr c.bounds s.mu
      + (s.newtonData c).jacobianᵀ *ᵥ Sum.elim s.curr.yc.get s.curr.yd.get) := by
  rw [Newton.Data.jacobian, fromBlocks_transpose, fromBlocks_mulVec, Newton.Data.rhsPrimal,
    barrierGradient]
  ext a
  rcases a with i | j
  · have terms := s.curr.x.get_barrierPull_sub c.bounds.x
      (s.eval.lagrangianGradient s.curr.yc s.curr.yd) s.eval.grad s.mu i
    have multiplied : (s.eval.lagrangianGradient s.curr.yc s.curr.yd).get i = s.eval.grad.get i
        + (s.eval.jacEq.toMatrixᵀ *ᵥ s.curr.yc.get) i
        + (s.eval.jacIneq.toMatrixᵀ *ᵥ s.curr.yd.get) i := by
      rw [Evaluation.lagrangianGradient, Dense.get_addTransposeProduct,
        Dense.get_addTransposeProduct]
      rfl
    simp only [State.newtonData, barrierGradients, Pi.neg_apply, Pi.add_apply, Sum.elim_inl,
      Sum.elim_comp_inl, Sum.elim_comp_inr, Vector.get_map]
    linarith
  · have terms := s.curr.s.get_barrierPull_sub c.bounds.s (s.curr.yd.map (-·))
      (Vector.replicate _ 0) s.mu j
    simp only [Vector.get_map, Vector.get_replicate] at terms
    simp only [State.newtonData, barrierGradients, Pi.neg_apply, Pi.add_apply, Sum.elim_inr,
      Sum.elim_comp_inl, Sum.elim_comp_inr, Vector.get_map, transpose_zero, zero_mulVec, zero_add,
      transpose_neg, transpose_one, neg_mulVec, one_mulVec]
    linarith

theorem newtonData_rhsDual (feasible : violation s.eval s.curr = 0) :
    (s.newtonData c).rhsDual = 0 := by
  obtain ⟨equalities, inequalities⟩ := violation_eq_zero feasible
  ext a
  rcases a with r | r
  · simp [Newton.Data.rhsDual, State.newtonData, equalities r]
  · simp [Newton.Data.rhsDual, State.newtonData, inequalities r]

section Search

variable [solver : DenseSolver ℝ] {dir : Direction ℝ d} {sol : Newton.Solution ℝ d}

/-- Where the primal part of the Newton direction is in the null space of the extended Jacobian, the
slope along it is the negative of the quadratic form of the primal block. -/
theorem barrierSlope_of_null (exact : EigenExact solver)
    (symmetric : s.curvature.matrix.Symmetric) {r : Newton.Regularization ℝ}
    {st : Newton.ShiftMemory ℝ} (solved : (Newton.solve r st (s.newtonData c)).result = .ok sol)
    (null : (s.newtonData c).jacobian *ᵥ sol.primal = 0) :
    barrierGradient s.eval s.curr c.bounds s.mu ⬝ᵥ sol.primal =
      -(sol.primal ⬝ᵥ ((s.newtonData c).primalBlock sol.deltaW *ᵥ sol.primal)) := by
  obtain ⟨primal, -⟩ := (Newton.solve_iff exact symmetric solved _ _).mpr ⟨rfl, rfl⟩
  rw [newtonData_rhsPrimal] at primal
  have crossed : ∀ y, sol.primal ⬝ᵥ ((s.newtonData c).jacobianᵀ *ᵥ y) = 0 := by
    intro y
    rw [dotProduct_mulVec, vecMul_transpose, null, zero_dotProduct]
  have along := congrArg (sol.primal ⬝ᵥ ·) primal
  simp only [dotProduct_add, dotProduct_neg, crossed, add_zero] at along
  rw [dotProduct_comm, along, neg_neg]

/-- At a feasible point and without a dual shift, the slope along the Newton direction is the
negative of the quadratic form of the primal block. -/
theorem barrierSlope_eq_neg_form (exact : EigenExact solver)
    (symmetric : s.curvature.matrix.Symmetric) {r : Newton.Regularization ℝ}
    {st : Newton.ShiftMemory ℝ} (solved : (Newton.solve r st (s.newtonData c)).result = .ok sol)
    (feasible : violation s.eval s.curr = 0) (unshifted : sol.deltaC = 0) :
    (s.newtonData c).jacobian *ᵥ sol.primal = 0 ∧
      barrierGradient s.eval s.curr c.bounds s.mu ⬝ᵥ sol.primal =
        -(sol.primal ⬝ᵥ ((s.newtonData c).primalBlock sol.deltaW *ᵥ sol.primal)) := by
  obtain ⟨-, dual⟩ := (Newton.solve_iff exact symmetric solved _ _).mpr ⟨rfl, rfl⟩
  rw [newtonData_rhsDual feasible, unshifted, zero_smul, sub_zero] at dual
  exact ⟨dual, barrierSlope_of_null exact symmetric solved dual⟩

/-- A solve without a dual shift has an extended Jacobian of full row rank and a primal block that
is positive definite on its null space. So at a feasible point every search direction of such a
solve that moves at all descends the barrier objective. -/
theorem unshifted_solve_descends (exact : EigenExact solver) :
    (∀ (d : Dims) (data : Newton.Data ℝ d) (r : Newton.Regularization ℝ)
        (st : Newton.ShiftMemory ℝ) (sol : Newton.Solution ℝ d), data.hess.Symmetric →
      (Newton.solve r st data).result = .ok sol → sol.deltaC = 0 →
        data.jacobian.rank = d.mEq + d.mIneq ∧
          ∀ p, p ≠ 0 → data.jacobian *ᵥ p = 0 → 0 < p ⬝ᵥ (data.primalBlock sol.deltaW *ᵥ p)) ∧
      ∀ (σ : Type) (d : Dims) (c : Setup ℝ σ d) (s s' : State ℝ σ d) (dir : Direction ℝ d)
          (sol : Newton.Solution ℝ d), (searchDirection c).outcome s = (.ok dir, s') →
        s'.curvature.matrix.Symmetric →
        (Newton.solve (.ofSettings c.settings) s.shifts (s'.newtonData c)).result = .ok sol →
        sol.deltaC = 0 → violation s.eval s.curr = 0 → dir.primal ≠ 0 →
          barrierSlope s.eval s.curr dir c.bounds s.mu < 0 := by
  refine ⟨?_, ?_⟩
  · intro d data r st sol symmetric solved unshifted
    refine ⟨Newton.jacobian_rank exact symmetric solved unshifted, ?_⟩
    intro p p_ne null
    exact Newton.primalBlock_pos exact symmetric solved unshifted p_ne null
  · intro σ d c s s' dir sol searched symmetric solved unshifted feasible moves
    obtain ⟨⟨w, k, m, t, rfl⟩, sol', solved', rfl⟩ := searchDirection_ok searched
    obtain rfl : sol' = sol := Except.ok.inj (solved'.symm.trans solved)
    obtain ⟨null, slope⟩ := barrierSlope_eq_neg_form exact symmetric solved feasible unshifted
    have form_pos := Newton.primalBlock_pos exact symmetric solved unshifted moves null
    rw [barrierSlope_eq]
    exact slope.trans_lt (neg_neg_of_pos form_pos)

end Search

open scoped Linear.Exact

/-- The first direction on the ray comes from a solve without a dual shift and descends. -/
theorem ray_direction_descends : ∃ s dir s' sol,
    (searchDirection (Ray.setup 10 1e-8)).outcome s = (.ok dir, s') ∧
      (Newton.solve (.ofSettings (Ray.settings 1e-8)) s.shifts
        (s'.newtonData (Ray.setup 10 1e-8))).result = .ok sol ∧ sol.deltaC = 0 ∧
      (s'.newtonData (Ray.setup 10 1e-8)).jacobian.rank = 0 ∧
      barrierSlope s.eval s.curr dir Ray.bounds s.mu < 0 := by
  obtain ⟨first, -, h, -⟩ := Ray.engine_started (by norm_num : (0 : ℝ) < 1e-8)
    (by norm_num : (1 : ℝ) ≤ 10)
  obtain ⟨dir, s', searched, h', flat, -, dx, -⟩ := h.direction Exact.exactSolver_exact
  obtain ⟨sol, solved, unshifted, -⟩ := h'.newton_solved Exact.exactSolver_exact flat
    (.ofSettings (Ray.settings 1e-8)) first.shifts
  have symmetric : s'.curvature.matrix.Symmetric := by
    intro i j
    rw [Subsingleton.elim i j]
  have moves : dir.primal ≠ 0 := by
    intro still
    have entry : dir.x.point.get 0 = 0 := congrFun still (.inl 0)
    rw [dx] at entry
    norm_num at entry
  obtain ⟨definite, descends⟩ := unshifted_solve_descends Exact.exactSolver_exact
  have rank := (definite _ _ _ _ _ symmetric solved unshifted).1
  have slope := descends _ _ _ _ _ _ _ searched symmetric solved unshifted
    (Ray.violation_zero _ _) moves
  exact ⟨first, dir, s', sol, searched, solved, unshifted, rank, slope⟩

end Barrier

end SmoothOpt
