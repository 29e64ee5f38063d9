import Mathlib
import SmoothOpt.Proofs.Barrier.Halfway

/-!
The search direction solves the full primal-dual system.

The engine solves a condensed system: the steps of the bound multipliers are eliminated, which adds
the barrier diagonal to the matrix and turns the multipliers in the right-hand side into `mu / s`.
Completing the solution undoes the elimination. The statements here put the four places together
where the elimination happens: the diagonal, the barrier gradients, the matrix and the completion.
-/
namespace SmoothOpt

open Scalar Linear Matrix

variable {n : Nat} {d : Dims}

namespace Block

variable {k : Block ℝ n} {b : Box ℝ n} {mu : ℝ} {step : BlockStep ℝ n}

/-- The linearized complementarity conditions `z ds + s dz = mu - s z` of the present bounds; the
multipliers of absent bounds do not move. A step of the point changes the lower distance by itself
and the upper one by its opposite. -/
structure Linearized (k : Block ℝ n) (b : Box ℝ n) (mu : ℝ) (step : BlockStep ℝ n) : Prop where
  lower : ∀ i, (b.lower.get i).present = true →
    k.multLo.get i * step.point.get i + k.slackLo.get i * step.multLo.get i =
      mu - k.slackLo.get i * k.multLo.get i
  upper : ∀ i, (b.upper.get i).present = true →
    k.multHi.get i * -step.point.get i + k.slackHi.get i * step.multHi.get i =
      mu - k.slackHi.get i * k.multHi.get i
  lowerAbsent : ∀ i, (b.lower.get i).present = false → step.multLo.get i = 0
  upperAbsent : ∀ i, (b.upper.get i).present = false → step.multHi.get i = 0

/-- The multiplier step at a positive distance, from the linearized condition of one bound. -/
theorem linearized_entry_iff {s z ds dz : ℝ} (positive : 0 < s) :
    z * ds + s * dz = mu - s * z ↔ dz = mu / s - z - z / s * ds := by
  have recovered : mu / s - z - z / s * ds = (mu - s * z - z * ds) / s := by
    field_simp
  rw [recovered, eq_div_iff positive.ne']
  constructor <;> intro h <;> linarith

theorem linearized_iff (positive : k.SlacksPositive b) :
    k.Linearized b mu step ↔ step = k.completeStep b mu step.point := by
  constructor
  · intro h
    obtain ⟨point, multLo, multHi⟩ := step
    rw [completeStep, BlockStep.mk.injEq]
    refine ⟨rfl, ext_get fun i => ?_, ext_get fun i => ?_⟩
    · rw [Vector.get_ofFn]
      cases present : (b.lower.get i).present
      · exact h.lowerAbsent i present
      · exact (linearized_entry_iff (positive.lower i present)).mp (h.lower i present)
    · rw [Vector.get_ofFn]
      cases present : (b.upper.get i).present
      · exact h.upperAbsent i present
      · have entry := (linearized_entry_iff (positive.upper i present)).mp (h.upper i present)
        rw [mul_neg, sub_neg_eq_add] at entry
        exact entry
  · intro completed
    have lower : ∀ i, step.multLo.get i = (k.completeStep b mu step.point).multLo.get i := by
      rw [← completed]
      exact fun _ => rfl
    have upper : ∀ i, step.multHi.get i = (k.completeStep b mu step.point).multHi.get i := by
      rw [← completed]
      exact fun _ => rfl
    refine ⟨?_, ?_, ?_, ?_⟩ <;> intro i present
    · rw [linearized_entry_iff (positive.lower i present), lower]
      simp [completeStep, present]
    · rw [linearized_entry_iff (positive.upper i present), upper]
      simp [completeStep, present]
    · rw [lower]
      simp [completeStep, present]
    · rw [upper]
      simp [completeStep, present]

/-- Eliminating the multiplier steps: the barrier diagonal and the barrier gradient stand for the
residual with the multipliers and their steps. -/
theorem Linearized.condensed (h : k.Linearized b mu step) (positive : k.SlacksPositive b)
    (base : Vector ℝ n) (i : Fin n) :
    (k.diagonal b).get i * step.point.get i + (k.barrierPull b base mu).get i =
      (pull b base k.multLo k.multHi).get i - step.multLo.get i + step.multHi.get i := by
  rw [(linearized_iff positive).mp h]
  simp only [diagonal, barrierPull, pull, pulled, completeStep, Vector.get_ofFn, Vector.get_map]
  cases (b.lower.get i).present <;> cases (b.upper.get i).present <;>
    simp only [if_true, Bool.false_eq_true, if_false] <;> ring

end Block

/-- The Newton system of the perturbed optimality conditions in all of its unknowns, with Hessian
`w` and the shifts `deltaW` and `deltaC`. -/
structure Direction.Solves (dir : Direction ℝ d) (it : Iterate ℝ d) (e : Evaluation ℝ d)
    (b : Bounds ℝ d) (r : Residual ℝ d) (w : Dense ℝ d.n d.n) (mu deltaW deltaC : ℝ) : Prop where
  stationaryX : ∀ i, ∑ j, w.entry i j * dir.x.point.get j + deltaW * dir.x.point.get i
      + (∑ r, e.jacEq.entry r i * dir.dyc.get r + ∑ r, e.jacIneq.entry r i * dir.dyd.get r)
      - dir.x.multLo.get i + dir.x.multHi.get i = -r.rx.get i
  stationaryS : ∀ j, deltaW * dir.s.point.get j - dir.dyd.get j - dir.s.multLo.get j
      + dir.s.multHi.get j = -r.rs.get j
  equalities : ∀ r, ∑ i, e.jacEq.entry r i * dir.x.point.get i - deltaC * dir.dyc.get r =
    -e.eq.get r
  inequalities : ∀ r, ∑ i, e.jacIneq.entry r i * dir.x.point.get i - dir.s.point.get r
      - deltaC * dir.dyd.get r = it.s.point.get r - e.ineq.get r
  linearizedX : it.x.Linearized b.x mu dir.x
  linearizedS : it.s.Linearized b.s mu dir.s

namespace Direction

def primal (dir : Direction ℝ d) : Newton.Primal d → ℝ := Sum.elim dir.x.point.get dir.s.point.get

def dual (dir : Direction ℝ d) : Newton.Dual d → ℝ := Sum.elim dir.dyc.get dir.dyd.get

variable {sol : Newton.Solution ℝ d} {it : Iterate ℝ d} {b : Bounds ℝ d} {mu : ℝ}

/-- A direction is that of a Newton solution when its primal and dual parts are and its bound
multipliers are completed. -/
theorem eq_ofNewton_iff (positive : it.SlacksPositive b) (dir : Direction ℝ d) :
    dir = .ofNewton sol it b mu ↔ (dir.primal = sol.primal ∧ dir.dual = sol.dual) ∧
      it.x.Linearized b.x mu dir.x ∧ it.s.Linearized b.s mu dir.s := by
  rw [Block.linearized_iff positive.x, Block.linearized_iff positive.s, primal, dual,
    Newton.Solution.primal, Newton.Solution.dual, Sum.elim_eq_iff, Sum.elim_eq_iff]
  constructor
  · rintro rfl
    exact ⟨⟨⟨rfl, rfl⟩, rfl, rfl⟩, rfl, rfl⟩
  · rintro ⟨⟨⟨dx, ds⟩, dyc, dyd⟩, x, s⟩
    obtain ⟨dirX, dirS, dirYc, dirYd⟩ := dir
    rw [ofNewton, Direction.mk.injEq, ← ext_get (congrFun dx), ← ext_get (congrFun ds)]
    exact ⟨x, s, ext_get (congrFun dyc), ext_get (congrFun dyd)⟩

end Direction

namespace Barrier

variable {σ : Type} {c : Setup ℝ σ d} {s s' : State ℝ σ d}

/-- The condensed system and the completion together are the full system. -/
theorem solves_iff (positive : s.curr.SlacksPositive c.bounds) (dir : Direction ℝ d)
    (deltaW deltaC : ℝ) :
    dir.Solves s.curr s.eval c.bounds
        (.compute s.curr s.eval c.bounds s.mu c.settings.pSmax) s.curvature.matrix s.mu deltaW
        deltaC ↔
      ((s.newtonData c).primalBlock deltaW *ᵥ dir.primal
          + (s.newtonData c).jacobianᵀ *ᵥ dir.dual = (s.newtonData c).rhsPrimal ∧
        (s.newtonData c).jacobian *ᵥ dir.primal - deltaC • dir.dual = (s.newtonData c).rhsDual) ∧
      s.curr.x.Linearized c.bounds.x s.mu dir.x ∧ s.curr.s.Linearized c.bounds.s s.mu dir.s := by
  rw [Direction.primal, Direction.dual, Newton.Data.primalRows_iff, Newton.Data.dualRows_iff]
  simp only [State.newtonData, barrierGradients, Vector.get_map, get_zipWith]
  constructor
  · intro h
    refine ⟨⟨⟨?_, ?_⟩, h.equalities, h.inequalities⟩, h.linearizedX, h.linearizedS⟩
    · intro i
      have row := h.stationaryX i
      have eliminated := h.linearizedX.condensed positive.x
        (s.eval.lagrangianGradient s.curr.yc s.curr.yd) i
      simp only [Residual.compute, Residual.withBarrier] at row
      linarith
    · intro j
      have row := h.stationaryS j
      have eliminated := h.linearizedS.condensed positive.s (s.curr.yd.map (-·)) j
      simp only [Residual.compute, Residual.withBarrier] at row
      linarith
  · rintro ⟨⟨⟨rowsX, rowsS⟩, equalities, inequalities⟩, linearizedX, linearizedS⟩
    refine ⟨?_, ?_, equalities, inequalities, linearizedX, linearizedS⟩
    · intro i
      have row := rowsX i
      have eliminated := linearizedX.condensed positive.x
        (s.eval.lagrangianGradient s.curr.yc s.curr.yd) i
      simp only [Residual.compute, Residual.withBarrier]
      linarith
    · intro j
      have row := rowsS j
      have eliminated := linearizedS.condensed positive.s (s.curr.yd.map (-·)) j
      simp only [Residual.compute, Residual.withBarrier]
      linarith

section Search

variable [solver : DenseSolver ℝ] {dir : Direction ℝ d}

/-- A search direction is the one solution of the full primal-dual system at the current point,
with the refreshed Hessian and the shifts the solve reports. -/
theorem searchDirection_solves (exact : EigenExact solver)
    (positive : s.curr.SlacksPositive c.bounds) (symmetric : s'.curvature.matrix.Symmetric)
    (h : (searchDirection c).outcome s = (.ok dir, s')) :
    ∃ sol, (Newton.solve (.ofSettings c.settings) s.shifts (s'.newtonData c)).result = .ok sol ∧
      ∀ other : Direction ℝ d, other.Solves s.curr s.eval c.bounds
        (.compute s.curr s.eval c.bounds s.mu c.settings.pSmax) s'.curvature.matrix s.mu sol.deltaW
        sol.deltaC ↔ other = dir := by
  obtain ⟨⟨w, k, m, t, rfl⟩, sol, solved, rfl⟩ := searchDirection_ok h
  refine ⟨sol, solved, ?_⟩
  intro other
  have system := solves_iff
    (s := { s with world := w, curvature := k, shifts := m, trialEval := t })
    positive other sol.deltaW sol.deltaC
  rw [Newton.solve_iff exact symmetric solved] at system
  exact system.trans (Direction.eq_ofNewton_iff positive other).symm

end Search

open scoped Linear.Exact

/-- The direction of a step that is halved is the one solution of its system, with the flat Hessian,
barrier parameter ten and no shift. -/
theorem halfway_direction_solves : ∃ s dir acc e s',
    Chosen (Halfway.setup 200) s dir acc e ∧ acc.alpha = 1 / 2 ∧
      (searchDirection (Halfway.setup 200)).outcome s = (.ok dir, s') ∧
      Halfway.Homeward 200 10 dir ∧
      ∀ other : Direction ℝ Halfway.trio, other.Solves s.curr s.eval Halfway.bounds
        (.compute s.curr s.eval Halfway.bounds 10 (Halfway.settings 200).pSmax) #v[#v[0]] 10 0 0 ↔
        other = dir := by
  have large : (100 : ℝ) ≤ 200 := by norm_num
  obtain ⟨first, s₀, last, -, -, h, -, -, dir, acc, e, chosen, half, -⟩ :=
    Halfway.run Exact.exactSolver_exact large
  have ten : (200 : ℝ) / 20 = 10 := by norm_num
  rw [ten] at h
  obtain ⟨dir', s', sol, searched, -, flat, solved, shiftW, shiftC, homeward⟩ :=
    h.direction Exact.exactSolver_exact (by norm_num)
  obtain ⟨⟨s₁, searched'⟩, -⟩ := chosen.searched
  obtain ⟨rfl, rfl⟩ : dir = dir' ∧ s₁ = s' := by
    simpa [searched'] using searched
  have symmetric : s₁.curvature.matrix.Symmetric := by
    intro i j
    rw [Subsingleton.elim i j]
  obtain ⟨sol', solved', unique⟩ := searchDirection_solves Exact.exactSolver_exact
    h.interior.slacksPositive symmetric searched
  obtain rfl := Except.ok.inj (solved.symm.trans solved')
  rw [flat, h.mu, shiftW, shiftC] at unique
  exact ⟨_, dir, acc, e, s₁, chosen, half, searched, homeward, unique⟩

end Barrier

end SmoothOpt
