import Mathlib
import SmoothOpt.Proofs.Barrier.Lift
import SmoothOpt.Proofs.Barrier.Positivity
import SmoothOpt.Proofs.Newton.Blocks
import SmoothOpt.Proofs.Problem.Ordering

/-!
Runs over extended numbers that never leave the real ones.

A callback's values and the solution of a Newton system are checked before they are used, and the
fraction-to-boundary rule keeps every distance positive, so that no quotient is by zero. The one
value that enters a run unchecked is the constant the constraint multipliers may start from: with
an infinite one the optimality error and its scaling are both infinite, their quotient is
undefined, and a maximum ignores it. Where this constant, the push of the starting point and the
widening of the bounds are finite, all other parameters may be infinite, the barrier parameter
included: an infinite one leaves no Newton system with a present bound solvable.
-/
namespace SmoothOpt

open Scalar Linear

open Extended (finite infinite)

variable {n : Nat} {d : Dims}

section Evaluation

variable {α σ : Type} [Scalar α]

namespace Evaluation

structure ValuesFinite (e : Evaluation α d) : Prop where
  f : isFinite e.f = true
  eq : allFinite e.eq.toList = true
  ineq : allFinite e.ineq.toList = true

structure IsFinite (e : Evaluation α d) : Prop extends ValuesFinite e where
  grad : allFinite e.grad.toList = true
  jacEq : allFinite e.jacEq.entries = true
  jacIneq : allFinite e.jacIneq.entries = true

theorem funcs_finite {p : Problem α σ d} {x : Vector α d.n} {t t' : Evaluation α d × σ}
    (h : (funcs p x).outcome t = (.ok (), t')) : t'.1.ValuesFinite := by
  simp only [funcs, Step.outcome_bind_ok] at h
  obtain ⟨_, t₁, first, _, t₂, second, third⟩ := h
  obtain ⟨f, -, objective, stored₁⟩ := ask_ok first
  obtain ⟨eq, -, equalities, stored₂⟩ := ask_ok second
  obtain ⟨ineq, -, inequalities, stored₃⟩ := ask_ok third
  rw [stored₃, stored₂, stored₁]
  exact ⟨objective, equalities, inequalities⟩

theorem derivs_finite {p : Problem α σ d} {x : Vector α d.n} {t t' : Evaluation α d × σ}
    (h : (derivs p x).outcome t = (.ok (), t')) (values : t.1.ValuesFinite) : t'.1.IsFinite := by
  simp only [derivs, Step.outcome_bind_ok, Step.outcome_modify_bind] at h
  obtain ⟨_, t₁, first, _, t₂, second, third⟩ := h
  obtain ⟨grad, -, gradient, stored₁⟩ := ask_ok first
  obtain ⟨jacEq, -, equalities, stored₂⟩ := ask_ok second
  obtain ⟨jacIneq, -, inequalities, stored₃⟩ := ask_ok third
  rw [stored₃, stored₂, stored₁]
  exact ⟨⟨values.f, values.eq, values.ineq⟩, gradient, equalities, inequalities⟩

theorem all_finite {p : Problem α σ d} {x : Vector α d.n} {t t' : Evaluation α d × σ}
    (h : (all p x).outcome t = (.ok (), t')) : t'.1.IsFinite := by
  simp only [all, Step.outcome_bind_ok] at h
  obtain ⟨_, t₁, values, derivatives⟩ := h
  exact derivs_finite derivatives (funcs_finite values)

theorem IsFinite.exists_lift {e : Evaluation Extended d} (h : e.IsFinite) :
    ∃ u : Evaluation ℝ d, e = u.lift := by
  obtain ⟨f, objective⟩ := Extended.exists_of_isFinite h.f
  obtain ⟨eq, equalities⟩ := Linear.exists_lift h.eq
  obtain ⟨ineq, inequalities⟩ := Linear.exists_lift h.ineq
  obtain ⟨grad, gradient⟩ := Linear.exists_lift h.grad
  obtain ⟨jacEq, equalityJacobian⟩ := Dense.exists_lift h.jacEq
  obtain ⟨jacIneq, inequalityJacobian⟩ := Dense.exists_lift h.jacIneq
  refine ⟨⟨f, eq, ineq, grad, jacEq, jacIneq⟩, ?_⟩
  rw [lift, ← objective, ← equalities, ← inequalities, ← gradient, ← equalityJacobian,
    ← inequalityJacobian]

end Evaluation

namespace Barrier

variable {c : Setup α σ d} {s s' : State α σ d}

theorem measureTrial_finite {dir : Direction α d} {alpha : α} {t t' : Evaluation α d × World α σ}
    {m : Measures α} (h : (measureTrial c s dir alpha).outcome t = (.ok m, t')) :
    t'.1.ValuesFinite := by
  simp only [measureTrial, Step.outcome_bind_ok, Step.outcome_within_ok, Step.outcome_get_bind,
    Step.outcome_pure, Prod.mk.injEq, Except.ok.injEq] at h
  obtain ⟨_, t₁, ⟨u, evaluated, rfl⟩, -, rfl⟩ := h
  have values := Evaluation.funcs_finite evaluated
  exact values

/-- The last trial of a search is the accepted one. -/
theorem searchStep_finite {dir : Direction α d} {alphaMax : α} {acc : Accepted α}
    {t t' : Evaluation α d × World α σ}
    (h : (searchStep c s dir alphaMax).outcome t = (.ok acc, t')) : t'.1.ValuesFinite := by
  unfold searchStep at h
  split at h
  · simp only [Step.outcome_bind_ok, Step.outcome_pure, Prod.mk.injEq] at h
    obtain ⟨m, t₁, tried, -, rfl⟩ := h
    exact measureTrial_finite tried
  · obtain ⟨k, -, -, before, m, tried, -⟩ := LineSearch.backtrackFrom_ok _ _ _ _ _ _ h
    exact measureTrial_finite tried

variable [DenseSolver α]

/-- A completed iteration refreshes the constraint multipliers, then clips those of the bounds. -/
theorem complete_curr (s : State α σ d) (c : Setup α σ d) (dir : Direction α d) (acc : Accepted α)
    (alphaDual : α) : (s.complete c dir acc alphaDual).curr =
      (s.curr.refreshMultipliers c.settings.multiplierUpdate s.eval c.bounds dir acc.alpha).1.clip
        c.bounds s.mu c.settings.kappaSigma := by
  unfold State.complete
  dsimp only
  rw [State.recordFrom]
  split <;> split <;> rfl

/-- After a completed iteration everything at the new point is finite. -/
theorem advance_finite (h : (advance c).outcome s = (.ok (), s')) : s'.eval.IsFinite := by
  simp only [advance, Step.outcome_bind_ok, Step.outcome_get_bind, Step.outcome_modify_bind,
    Step.outcome_modify, Prod.mk.injEq, true_and] at h
  obtain ⟨dir, s₁, -, ⟨acc, e⟩, s₂, found, _, s₃, evaluated, rfl⟩ := h
  obtain ⟨w, searched, rfl⟩ := lineSearch_searched found
  have values := searchStep_finite searched
  obtain ⟨e', w', derivatives, rfl⟩ := evaluating_ok evaluated
  have regular := Evaluation.derivs_finite derivatives values
  obtain ⟨w'', y, completed⟩ := complete_eq _ c dir acc _
  rw [completed]
  exact regular

end Barrier

end Evaluation

section Newton

/-- The entries of a finite product were multiplied with finite numbers. -/
theorem Linear.Dense.isFinite_of_mulVec {m : Nat} {a : Dense Extended m n} {v : Vector Extended n}
    {k : Fin m} (h : isFinite ((a.mulVec v).get k) = true) (i : Fin n) :
    isFinite (v.get i) = true := by
  rw [mulVec, Vector.get_map, inner, toList_eq_map_get] at h
  have term := Extended.isFinite_of_sum h _ (List.mem_map_of_mem (List.mem_finRange i))
  rw [get_zipWith] at term
  exact (Extended.isFinite_of_mul term).2

namespace Newton

/-- A finite solution belongs to a finite right-hand side: no decomposition makes an infinite entry
disappear. -/
theorem ScaledEigen.rhs_finite {e : ScaledEigen Extended n} {rhs : Vector Extended n}
    (h : allFinite (e.solve rhs).toList = true) : allFinite rhs.toList = true := by
  rw [allFinite_toList_iff] at h ⊢
  intro i
  have solution := h i
  rw [solve, get_zipWith] at solution
  have coordinate := Dense.isFinite_of_mulVec (Extended.isFinite_of_mul solution).1 i
  rw [get_zipWith] at coordinate
  have scaled := Dense.isFinite_of_mulVec (Extended.isFinite_of_div coordinate) i
  rw [get_zipWith] at scaled
  exact (Extended.isFinite_of_mul scaled).1

variable [DenseSolver Extended]

/-- A solved system has a real solution and a finite right-hand side. -/
theorem solve_real {r : Regularization Extended} {st : ShiftMemory Extended}
    {data : Data Extended d} {sol : Solution Extended d} (h : (solve r st data).result = .ok sol) :
    (∃ u : Solution ℝ d, sol.dx = lift u.dx ∧ sol.ds = lift u.ds ∧ sol.dyc = lift u.dyc ∧
      sol.dyd = lift u.dyd) ∧ allFinite data.rhs.toList = true := by
  obtain ⟨-, regular, read⟩ := solve_ok h
  obtain ⟨u, real⟩ := Linear.exists_lift regular
  refine ⟨⟨.ofVector u 0 0, ?_⟩, ScaledEigen.rhs_finite regular⟩
  rw [real] at read
  rw [read]
  simp only [Solution.ofVector, lift_firstPart, lift_lastPart, and_self]

end Newton

/-- A pull by something that is not finite is not finite. -/
theorem absent_of_pulled {lo hi : Bound Extended} {base l h : Extended}
    (regular : isFinite (pulled lo hi base l h) = true)
    (lower : lo.present = true → isFinite l = false)
    (upper : hi.present = true → isFinite h = false) : lo.present = false ∧ hi.present = false := by
  rw [pulled] at regular
  cases above : hi.present with
  | true =>
    rw [above, if_pos rfl] at regular
    exact absurd ((Extended.isFinite_of_add regular).2.symm.trans (upper above)) nofun
  | false =>
    rw [above, if_neg Bool.false_ne_true] at regular
    cases below : lo.present with
    | true =>
      rw [below, if_pos rfl] at regular
      exact absurd ((Extended.isFinite_of_sub regular).2.symm.trans (lower below)) nofun
    | false => exact ⟨rfl, rfl⟩

/-- An infinite barrier parameter pulls infinitely at every present bound. -/
theorem Block.absent_of_barrierPull {k : Block ℝ n} {b : Box Extended n}
    (inside : k.Interior b.toReal) {base : Vector Extended n}
    (regular : ∀ i, isFinite ((k.lift.barrierPull b base (infinite true)).get i) = true) :
    b.Absent := by
  have both : ∀ i, (b.lower.get i).present = false ∧ (b.upper.get i).present = false := by
    intro i
    have entry := regular i
    rw [barrierPull, pull, Vector.get_ofFn] at entry
    refine absent_of_pulled entry ?_ ?_
    · intro present
      rw [lift, Vector.get_map, get_lift,
        Extended.infinite_div_finite _ (inside.slackLo.pos_of_present present)]
      rfl
    · intro present
      rw [lift, Vector.get_map, get_lift,
        Extended.infinite_div_finite _ (inside.slackHi.pos_of_present present)]
      rfl
  exact ⟨fun i => (both i).1, fun i => (both i).2⟩

end Newton

section Multipliers

def liftPair (y : Vector ℝ d.mEq × Vector ℝ d.mIneq) : Vector Extended d.mEq × Vector Extended d.mIneq :=
  (lift y.1, lift y.2)

theorem zeros_real : ∃ y, (Vector.replicate d.mEq (0 : Extended), Vector.replicate d.mIneq 0) =
    liftPair (d := d) y :=
  ⟨(Vector.replicate _ 0, Vector.replicate _ 0), by simp only [liftPair, lift_replicate]; rfl⟩

variable [DenseSolver Extended]

/-- An estimate by least squares is checked. -/
theorem lsqEstimate_real {e : Evaluation Extended d} {it : Iterate Extended d}
    {b : Bounds Extended d} {y : Vector Extended d.mEq × Vector Extended d.mIneq}
    (h : lsqEstimate e it b = some y) : ∃ u, y = liftPair u := by
  unfold lsqEstimate at h
  split at h
  · cases h
    exact zeros_real
  · dsimp only at h
    split at h
    · cases h
    · split at h
      · rename_i regular
        cases h
        obtain ⟨u, rfl⟩ := Linear.exists_lift regular
        exact ⟨(firstPart u, lastPart u), by rw [lift_firstPart, lift_lastPart]; rfl⟩
      · cases h

theorem Iterate.refreshMultipliers_real (kind : MultiplierUpdate) (it : Iterate ℝ d)
    (e : Evaluation Extended d) (b : Bounds Extended d) (dir : Direction ℝ d) (alpha : ℝ) :
    ∃ y, (it.lift.refreshMultipliers kind e b dir.lift (finite alpha)).1 =
      (it.withConstraintMultipliers y).lift := by
  have newton : it.lift.takeConstraintStep dir.lift (finite alpha) =
      (it.withConstraintMultipliers ((it.takeConstraintStep dir alpha).yc,
        (it.takeConstraintStep dir alpha).yd)).lift := it.takeConstraintStep_lift dir alpha
  unfold refreshMultipliers
  split
  · exact ⟨_, newton⟩
  · split
    · rename_i y estimate
      obtain ⟨u, rfl⟩ := lsqEstimate_real estimate
      exact ⟨u, rfl⟩
    · exact ⟨_, newton⟩

end Multipliers

end SmoothOpt
