import Mathlib
import SmoothOpt.Proofs.Penalty.View
import SmoothOpt.Proofs.Problem.Calculus

/-!
The view of a problem is a smooth problem with exact derivatives.

With `p = (c(x), d(x) - s)` and `P` its derivative, the gradient of the augmented Lagrangian is
`∇f + Pᵀ(λ + ρ p)`. Its derivative is that of `∇f + Pᵀ y` with the multipliers `y = λ + ρ p` held,
which is the user's Hessian at `y`, and `ρ PᵀP` from the change of the multipliers.
-/
namespace SmoothOpt

open Scalar Linear

namespace Penalty

open View

variable {σ : Type} {d : Dims} {p : Problem ℝ σ d} {F : Functions ℝ d} {v : View ℝ d}
  {z : Vector ℝ (d.n + d.mIneq)}
  {hess : Vector ℝ d.n → ℝ → Vector ℝ d.mEq → Vector ℝ d.mIneq → Dense ℝ d.n d.n}

/-- The penalty vector `(c(x), d(x) - s)` as a function of the point. -/
noncomputable def penaltyOf (F : Functions ℝ d) (z : Vector ℝ (d.n + d.mIneq)) :
    Vector ℝ (entryCount d) :=
  penaltyVector (F.evaluation (variablePart z)) z

namespace View

/-- The augmented Lagrangian `f + λᵀ p + ρ/2 ‖p‖²` as a function of the point. -/
noncomputable def augmented (v : View ℝ d) (F : Functions ℝ d) (z : Vector ℝ (d.n + d.mIneq)) : ℝ :=
  F.objective (variablePart z) + ∑ k, v.lambda.get k * (penaltyOf F z).get k
    + v.rho / 2 * ∑ k, (penaltyOf F z).get k ^ 2

noncomputable def meritSlope (v : View ℝ d) (F : Functions ℝ d) (z : Vector ℝ (d.n + d.mIneq)) :
    Vector ℝ (d.n + d.mIneq) :=
  v.meritGradient (F.evaluation (variablePart z)) (penaltyOf F z)

/-- The user's Hessian at the multipliers the view estimates. -/
noncomputable def userHessian (v : View ℝ d) (F : Functions ℝ d)
    (hess : Vector ℝ d.n → ℝ → Vector ℝ d.mEq → Vector ℝ d.mIneq → Dense ℝ d.n d.n)
    (z : Vector ℝ (d.n + d.mIneq)) : Dense ℝ d.n d.n :=
  let y := v.multiplierEstimate (penaltyOf F z)
  hess (variablePart z) 1 (equalityPart y) (inequalityPart y)

end View

section Callbacks

/-- The objective the view writes is the augmented Lagrangian. -/
theorem objective_writes (computes : p.Computes F) (newX : Bool) :
    Writes ((v.problem p).objective z newX) (v.augmented F z) := by
  intro w succeeded
  rcases ran : (evaluateAt p z false).run w with ⟨_ | ⟨e, penalty⟩, w'⟩
  · simp only [problem, run_bind, ran] at succeeded
    cases succeeded
  · obtain ⟨evaluated, rfl⟩ := evaluateAt_some ran
    have values := Evaluation.funcs_ok evaluated
    have f := values.f.eq_of_writes (computes.objective _ true)
    have eq := values.eq.eq_of_writes (computes.equalities _ false)
    have ineq := values.ineq.eq_of_writes (computes.inequalities _ false)
    have same : penaltyVector e z = penaltyOf F z := by
      rw [penaltyVector, eq, ineq]
      rfl
    have value : v.merit e (penaltyVector e z) = v.augmented F z := by
      rw [same, merit, augmented, f, Dense.inner_eq_sum, Dense.inner_eq_sum]
      simp only [← pow_two]
      ring
    simp only [problem, run_bind, ran]
    exact congrArg some value

/-- An evaluation with derivatives holds the values of the functions. -/
theorem evaluateAt_computed (computes : p.Computes F) {w w' : σ} {e : Evaluation ℝ d}
    {penalty : Vector ℝ (entryCount d)}
    (ran : (evaluateAt p z true).run w = (some (e, penalty), w')) :
    e = F.evaluation (variablePart z) ∧ penalty = penaltyOf F z := by
  obtain ⟨evaluated, rfl⟩ := evaluateAt_some ran
  obtain rfl := (Evaluation.all_ok evaluated).eq_evaluation computes
  exact ⟨rfl, rfl⟩

/-- The gradient the view writes. -/
theorem gradient_writes (computes : p.Computes F) (newX : Bool) :
    Writes ((v.problem p).gradient z newX) (v.meritSlope F z) := by
  intro w succeeded
  rcases ran : (evaluateAt p z true).run w with ⟨_ | ⟨e, penalty⟩, w'⟩
  · simp only [problem, run_bind, ran] at succeeded
    cases succeeded
  · obtain ⟨rfl, rfl⟩ := evaluateAt_computed computes ran
    simp only [problem, run_bind, ran]
    rfl

/-- The Hessian the view writes. -/
theorem hessian_writes (computes : p.Computes F)
    (curved : ∀ x newX w yc yd, Writes (p.hessian x newX w yc yd) (hess x w yc yd)) (newX : Bool)
    (weight : ℝ) (yc yd : Vector ℝ 0) :
    Writes ((v.problem p).hessian z newX weight yc yd)
      (v.meritHessian (F.evaluation (variablePart z)) (v.userHessian F hess z) weight) := by
  intro w succeeded
  rcases ran : (evaluateAt p z true).run w with ⟨_ | ⟨e, penalty⟩, w'⟩
  · simp only [problem, run_bind, ran] at succeeded
    cases succeeded
  · obtain ⟨rfl, rfl⟩ := evaluateAt_computed computes ran
    simp only [problem, run_bind, ran] at succeeded ⊢
    split at succeeded
    · cases succeeded
    · rename_i answered
      have written := curved _ _ _ _ _ w' (by simpa using answered)
      rw [if_neg answered]
      simp only [Reply.onto, written]
      rfl

/-- Where the user's callbacks succeed, those of the view do. -/
theorem objective_succeeds (succeeds : p.SucceedsAt (variablePart z)) (newX : Bool) (w : σ) :
    (((v.problem p).objective z newX).run w).1.ok = true := by
  obtain ⟨⟨e, w'⟩, evaluated⟩ := Evaluation.funcs_succeeds succeeds (.blank, w)
  have ran : (evaluateAt p z false).run w = _ := evaluateAt_of_outcome evaluated
  simp only [problem, run_bind, ran]
  rfl

theorem gradient_succeeds (succeeds : p.SucceedsAt (variablePart z)) (newX : Bool) (w : σ) :
    (((v.problem p).gradient z newX).run w).1.ok = true := by
  obtain ⟨⟨e, w'⟩, evaluated⟩ := Evaluation.all_succeeds succeeds (.blank, w)
  have ran : (evaluateAt p z true).run w = _ := evaluateAt_of_outcome evaluated
  simp only [problem, run_bind, ran]
  rfl

theorem hessian_succeeds (succeeds : p.SucceedsAt (variablePart z))
    (curved : ∀ newX weight yc yd w,
      ((p.hessian (variablePart z) newX weight yc yd).run w).1.ok = true)
    (newX : Bool) (weight : ℝ) (yc yd : Vector ℝ 0) (w : σ) :
    (((v.problem p).hessian z newX weight yc yd).run w).1.ok = true := by
  obtain ⟨⟨e, w'⟩, evaluated⟩ := Evaluation.all_succeeds succeeds (.blank, w)
  have ran : (evaluateAt p z true).run w = _ := evaluateAt_of_outcome evaluated
  simp only [problem, run_bind, ran]
  rw [if_neg (by simp [curved])]
  exact allFinite_real _

end Callbacks

section Derivatives

/-- The penalty vector has the derivative `[Jc 0; Jd -I]`. -/
theorem penalty_jacobian (exact : F.ExactAt (variablePart z)) :
    JacobianAt (penaltyOf F) (penaltyJacobian (F.evaluation (variablePart z))) z := by
  intro k
  refine Fin.addCases (fun r => ?_) (fun j => ?_) k
  · simp only [penaltyOf, penaltyVector, get_append_castAdd, penaltyJacobian_equality]
    exact (exact.equalities r).comp_firstPart
  · have row := ((exact.inequalities j).comp_firstPart).sub (.coordinate (j.natAdd d.n) z)
    have entries : Fin.append ((F.inequalityJacobian (variablePart z)).entry j) 0
        - Pi.single (j.natAdd d.n) 1 =
          Fin.append ((F.inequalityJacobian (variablePart z)).entry j) (Pi.single j (-1)) := by
      funext a
      refine Fin.addCases (fun i => ?_) (fun j' => ?_) a
      · simp [Pi.single_apply, Fin.ext_iff]
        omega
      · by_cases same : j' = j
        · simp [same]
        · simp [same]
    simp only [penaltyOf, penaltyVector, get_append_natAdd, get_zipWith, slackPart, get_lastPart,
      penaltyJacobian_inequality]
    rw [entries] at row
    exact row

/-- The multiplier estimate moves with the penalty vector. -/
theorem estimate_gradient (exact : F.ExactAt (variablePart z)) (k : Fin (entryCount d)) :
    GradientAt (fun u => (v.multiplierEstimate (penaltyOf F u)).get k)
      (v.rho • (penaltyJacobian (F.evaluation (variablePart z))).entry k) z := by
  have moved :=
    (GradientAt.const (v.lambda.get k) z).add ((penalty_jacobian exact k).const_mul v.rho)
  simp only [multiplierEstimate, get_zipWith]
  rw [zero_add] at moved
  exact moved

/-- The gradient of the augmented Lagrangian is the one the view computes. -/
theorem augmented_gradient (exact : F.ExactAt (variablePart z)) :
    GradientAt (v.augmented F) (v.meritSlope F z).get z := by
  have jacobian := penalty_jacobian exact
  have objective := exact.objective.comp_firstPart (z := z)
  have linear := GradientAt.sum (s := Finset.univ) fun k _ =>
    (jacobian k).const_mul (v.lambda.get k)
  have square := (GradientAt.sum (s := Finset.univ) fun k _ =>
    (jacobian k).mul (jacobian k)).const_mul (v.rho / 2)
  have total := (objective.add linear).add square
  have value : v.augmented F = fun u => F.objective (firstPart u)
      + ∑ k, v.lambda.get k * (penaltyOf F u).get k
      + v.rho / 2 * ∑ k, (penaltyOf F u).get k * (penaltyOf F u).get k := by
    funext u
    simp only [augmented, pow_two, variablePart]
  have entries : (v.meritSlope F z).get = Fin.append (F.gradient (variablePart z)).get 0
      + ∑ k, v.lambda.get k • (penaltyJacobian (F.evaluation (variablePart z))).entry k
      + (v.rho / 2) • ∑ k,
        ((penaltyOf F z).get k • (penaltyJacobian (F.evaluation (variablePart z))).entry k
          + (penaltyOf F z).get k • (penaltyJacobian (F.evaluation (variablePart z))).entry k) := by
    funext a
    simp only [meritSlope, get_meritGradient, multiplierEstimate, get_zipWith, Pi.add_apply,
      Finset.sum_apply, Pi.smul_apply, smul_eq_mul, Finset.mul_sum, add_assoc,
      ← Finset.sum_add_distrib]
    congr 1
    refine Finset.sum_congr rfl fun k _ => ?_
    ring
  rw [value, entries]
  exact total

/-- With the multipliers held, the gradient changes by the user's Hessian. -/
theorem held_gradient (curved : F.CurvatureAt (hess (variablePart z)) (variablePart z))
    (y : Vector ℝ (entryCount d)) (a : Fin (d.n + d.mIneq)) :
    GradientAt (fun u => Fin.append (F.gradient (variablePart u)).get 0 a
        + ∑ k, (penaltyJacobian (F.evaluation (variablePart u))).entry k a * y.get k)
      (extended (hess (variablePart z) 1 (equalityPart y) (inequalityPart y)) a) z := by
  simp only [Fin.sum_univ_add, penaltyJacobian_equality, penaltyJacobian_inequality, extended]
  refine Fin.addCases (fun i => ?_) (fun j => ?_) a
  · have row := (curved 1 (equalityPart y) (inequalityPart y) i).comp_firstPart (z := z)
    simp only [Functions.lagrangianSlope, one_mul, equalityPart, inequalityPart, get_firstPart,
      get_lastPart] at row
    simp only [Fin.append_left, ← add_assoc]
    exact row
  · simp only [Fin.append_right, Pi.zero_apply, zero_mul, Finset.sum_const_zero, zero_add]
    exact .const _ z

/-- The entries of `P` are differentiable. -/
theorem penaltyJacobian_entry (curved : F.CurvatureAt (hess (variablePart z)) (variablePart z))
    (k : Fin (entryCount d)) (a : Fin (d.n + d.mIneq)) :
    ∃ g, GradientAt (fun u => (penaltyJacobian (F.evaluation (variablePart u))).entry k a) g z := by
  refine Fin.addCases (fun r => ?_) (fun j => ?_) k
  · simp only [penaltyJacobian_equality]
    refine Fin.addCases (fun i => ?_) (fun j' => ?_) a
    · simp only [Fin.append_left]
      obtain ⟨g, row⟩ := curved.equalityJacobian r i
      exact ⟨_, row.comp_firstPart⟩
    · simp only [Fin.append_right]
      exact ⟨_, .const _ z⟩
  · simp only [penaltyJacobian_inequality]
    refine Fin.addCases (fun i => ?_) (fun j' => ?_) a
    · simp only [Fin.append_left]
      obtain ⟨g, row⟩ := curved.inequalityJacobian j i
      exact ⟨_, row.comp_firstPart⟩
    · simp only [Fin.append_right]
      exact ⟨_, .const _ z⟩

/-- Derivative of the gradient of the augmented Lagrangian: the user's Hessian and `ρ PᵀP`. -/
noncomputable def slopeJacobian (v : View ℝ d) (F : Functions ℝ d)
    (hess : Vector ℝ d.n → ℝ → Vector ℝ d.mEq → Vector ℝ d.mIneq → Dense ℝ d.n d.n)
    (z : Vector ℝ (d.n + d.mIneq)) : Dense ℝ (d.n + d.mIneq) (d.n + d.mIneq) :=
  v.meritHessian (F.evaluation (variablePart z)) (v.userHessian F hess z) 1

theorem meritSlope_jacobian (exact : F.ExactAt (variablePart z))
    (curved : F.CurvatureAt (hess (variablePart z)) (variablePart z)) :
    JacobianAt (v.meritSlope F) (slopeJacobian v F hess z) z := by
  intro a
  let held := v.multiplierEstimate (penaltyOf F z)
  -- the multipliers are held at the point, and the rest of the sum vanishes there
  have split : (fun u => (v.meritSlope F u).get a) = fun u =>
      (Fin.append (F.gradient (variablePart u)).get 0 a
        + ∑ k, (penaltyJacobian (F.evaluation (variablePart u))).entry k a * held.get k)
      + ∑ k, ((v.multiplierEstimate (penaltyOf F u)).get k - held.get k)
        * (penaltyJacobian (F.evaluation (variablePart u))).entry k a := by
    funext u
    rw [meritSlope, get_meritGradient, add_assoc, ← Finset.sum_add_distrib]
    congr 1
    refine Finset.sum_congr rfl fun k _ => ?_
    ring
  have changes : ∀ k, GradientAt (fun u => ((v.multiplierEstimate (penaltyOf F u)).get k
        - held.get k) * (penaltyJacobian (F.evaluation (variablePart u))).entry k a)
      ((penaltyJacobian (F.evaluation (variablePart z))).entry k a
        • v.rho • (penaltyJacobian (F.evaluation (variablePart z))).entry k) z := by
    intro k
    obtain ⟨g, differentiable⟩ := penaltyJacobian_entry curved k a
    have product := ((estimate_gradient (v := v) exact k).sub (.const (held.get k) z)).mul
      differentiable
    simp only [held, sub_self, zero_smul, zero_add, sub_zero] at product
    exact product
  have total := (held_gradient curved held a).add (.sum (s := Finset.univ) fun k _ => changes k)
  have entries : (slopeJacobian v F hess z).entry a =
      extended (hess (variablePart z) 1 (equalityPart held) (inequalityPart held)) a
        + ∑ k, (penaltyJacobian (F.evaluation (variablePart z))).entry k a
          • v.rho • (penaltyJacobian (F.evaluation (variablePart z))).entry k := by
    funext b
    simp only [slopeJacobian, entry_meritHessian, userHessian, held, one_mul, Pi.add_apply,
      Finset.sum_apply, Pi.smul_apply, smul_eq_mul, Finset.mul_sum]
    congr 1
    refine Finset.sum_congr rfl fun k _ => ?_
    ring
  rw [split, entries]
  exact total

end Derivatives

/-- The callbacks of the view succeed where the user's do. They write the augmented Lagrangian and,
where the user's derivatives are exact, its gradient and the weighted derivative of that gradient,
which is symmetric when the user's Hessian is. -/
theorem view_derivatives_exact (computes : p.Computes F) (v : View ℝ d)
    (z : Vector ℝ (d.n + d.mIneq)) :
    (∀ newX, Writes ((v.problem p).objective z newX) (v.augmented F z) ∧
      Writes ((v.problem p).gradient z newX) (v.meritSlope F z)) ∧
    (p.SucceedsAt (variablePart z) → ∀ newX w,
      (((v.problem p).objective z newX).run w).1.ok = true ∧
      (((v.problem p).gradient z newX).run w).1.ok = true) ∧
    (F.ExactAt (variablePart z) → GradientAt (v.augmented F) (v.meritSlope F z).get z) ∧
    ∀ hess, (∀ x newX w yc yd, Writes (p.hessian x newX w yc yd) (hess x w yc yd)) →
      ∃ written : ℝ → Dense ℝ (d.n + d.mIneq) (d.n + d.mIneq),
        (∀ newX weight yc yd,
          Writes ((v.problem p).hessian z newX weight yc yd) (written weight)) ∧
        (p.SucceedsAt (variablePart z) → (∀ newX w yc yd o,
            ((p.hessian (variablePart z) newX w yc yd).run o).1.ok = true) →
          ∀ newX weight yc yd o,
            (((v.problem p).hessian z newX weight yc yd).run o).1.ok = true) ∧
        (F.ExactAt (variablePart z) → F.CurvatureAt (hess (variablePart z)) (variablePart z) →
          ∃ second, JacobianAt (v.meritSlope F) second z ∧
            ∀ weight, (written weight).toMatrix = weight • second.toMatrix) ∧
        ((v.userHessian F hess z).Symmetric → ∀ weight, (written weight).Symmetric) := by
  refine ⟨?_, ?_, augmented_gradient, ?_⟩
  · intro newX
    exact ⟨objective_writes computes newX, gradient_writes computes newX⟩
  · intro succeeds newX w
    exact ⟨objective_succeeds succeeds newX w, gradient_succeeds succeeds newX w⟩
  intro hess curved
  refine ⟨v.meritHessian (F.evaluation (variablePart z)) (v.userHessian F hess z), ?_, ?_, ?_, ?_⟩
  · exact hessian_writes computes curved
  · exact hessian_succeeds
  · intro exact second
    refine ⟨_, meritSlope_jacobian exact second, ?_⟩
    intro weight
    ext a b
    simp only [slopeJacobian, Dense.toMatrix_apply, Matrix.smul_apply, entry_meritHessian,
      smul_eq_mul, one_mul]
  · intro symmetric weight
    exact meritHessian_symmetric weight symmetric

namespace Parabola

/-- Minimize `x` with `x² = 0` and a free `x`, as an equality and an inequality. -/
noncomputable def functions : Functions ℝ ⟨1, 1, 1⟩ where
  objective x := x.get ⟨0, Nat.one_pos⟩
  equalities x := single (x.get ⟨0, Nat.one_pos⟩ * x.get ⟨0, Nat.one_pos⟩)
  inequalities x := single (x.get ⟨0, Nat.one_pos⟩)
  gradient _ := single 1
  equalityJacobian x := single (single (x.get ⟨0, Nat.one_pos⟩ + x.get ⟨0, Nat.one_pos⟩))
  inequalityJacobian _ := single (single 1)

noncomputable def hessian (_ : Vector ℝ 1) (_ : ℝ) (yc _ : Vector ℝ 1) : Dense ℝ 1 1 :=
  single (single (yc.get ⟨0, Nat.one_pos⟩ + yc.get ⟨0, Nat.one_pos⟩))

noncomputable def problem : Problem ℝ Unit ⟨1, 1, 1⟩ where
  variableBounds := pure (.good (single (-1e20), single 1e20))
  inequalityBounds := pure (.good (single (-1e20), single 1e20))
  start := pure (.good (single 1))
  objective x _ := pure (.good (functions.objective x))
  gradient x _ := pure (.good (functions.gradient x))
  equalities x _ := pure (.good (functions.equalities x))
  inequalities x _ := pure (.good (functions.inequalities x))
  equalityJacobian x _ := pure (.good (functions.equalityJacobian x))
  inequalityJacobian x _ := pure (.good (functions.inequalityJacobian x))
  providesHessian := true
  hessian x _ w yc yd := pure (.good (hessian x w yc yd))

theorem computes : problem.Computes functions := by
  constructor <;> intro x newX w _ <;> rfl

theorem succeedsAt (x : Vector ℝ 1) : problem.SucceedsAt x := by
  constructor <;> intro newX w <;> rfl

theorem unit_eq : (Pi.single 0 1 : Fin 1 → ℝ) = (#v[1] : Vector ℝ 1).get := by
  funext i
  rw [Subsingleton.elim i 0]
  rfl

theorem exactAt (x : Vector ℝ 1) : functions.ExactAt x := by
  have coordinate := GradientAt.coordinate (0 : Fin 1) x
  refine ⟨?_, ?_, ?_⟩
  · rw [unit_eq] at coordinate
    exact coordinate
  · intro r
    have row : (functions.equalityJacobian x).entry r =
        x.get (0 : Fin 1) • Pi.single 0 1 + x.get (0 : Fin 1) • Pi.single 0 1 := by
      funext i
      rw [Subsingleton.elim r 0, Subsingleton.elim i 0]
      simp [functions, Dense.entry, Vector.get]
    rw [row, Subsingleton.elim r 0]
    exact coordinate.mul coordinate
  · intro r
    rw [unit_eq] at coordinate
    rw [Subsingleton.elim r 0]
    exact coordinate

theorem curvatureAt (x : Vector ℝ 1) : functions.CurvatureAt (hessian x) x := by
  intro w yc yd i
  have value : (fun u => functions.lagrangianSlope w yc yd u i) =
      fun u => (w + yd.get (0 : Fin 1)) + 2 * yc.get (0 : Fin 1) * u.get (0 : Fin 1) := by
    funext u
    rw [Subsingleton.elim i 0]
    simp [Functions.lagrangianSlope, functions, Dense.entry, Vector.get]
    ring
  have row : (hessian x w yc yd).entry i = 0 + (2 * yc.get (0 : Fin 1)) • Pi.single 0 1 := by
    funext k
    rw [Subsingleton.elim i 0, Subsingleton.elim k 0]
    simp [hessian, Dense.entry, Vector.get, two_mul]
  rw [value, row]
  exact (GradientAt.const _ x).add ((GradientAt.coordinate 0 x).const_mul _)

/-- The view of the problem with multipliers `1`, `3` and penalty parameter `3`. -/
noncomputable def view : View ℝ ⟨1, 1, 1⟩ where
  box := ⟨#v[⟨-1e20, false⟩, ⟨-1e20, false⟩], #v[⟨1e20, false⟩, ⟨1e20, false⟩]⟩
  start := #v[1, 0]
  lambda := #v[1, 3]
  rho := 3

end Parabola

/-- At `x = 1`, `s = 0` the view has an exact gradient and an exact, symmetric Hessian. -/
theorem parabola_view_exact :
    GradientAt (Parabola.view.augmented Parabola.functions)
      (Parabola.view.meritSlope Parabola.functions #v[1, 0]).get #v[1, 0] ∧
    ∃ (written : ℝ → Dense ℝ 2 2) (second : Dense ℝ 2 2),
      (∀ weight, Writes ((Parabola.view.problem Parabola.problem).hessian #v[1, 0] false weight #v[]
        #v[]) (written weight)) ∧
      (((Parabola.view.problem Parabola.problem).hessian #v[1, 0] false 1 #v[] #v[]).run ()).1.ok
        = true ∧
      JacobianAt (Parabola.view.meritSlope Parabola.functions) second #v[1, 0] ∧
      ∀ weight, (written weight).toMatrix = weight • second.toMatrix ∧
        (written weight).Symmetric := by
  obtain ⟨-, -, gradient, hessian⟩ :=
    view_derivatives_exact Parabola.computes Parabola.view #v[1, 0]
  obtain ⟨written, writes, succeeds, exact, symmetric⟩ := hessian Parabola.hessian
    (by intro x newX w yc yd o _; rfl)
  obtain ⟨second, jacobian, weighted⟩ := exact (Parabola.exactAt _) (Parabola.curvatureAt _)
  refine ⟨gradient (Parabola.exactAt _), written, second, fun weight => writes _ weight _ _,
    succeeds (Parabola.succeedsAt _) (fun _ _ _ _ _ => rfl) _ _ _ _ _, jacobian, ?_⟩
  intro weight
  refine ⟨weighted weight, symmetric ?_ weight⟩
  intro i j
  rw [Subsingleton.elim i j]

end Penalty

end SmoothOpt
