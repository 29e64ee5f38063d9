import Mathlib
import SmoothOpt.Proofs.Linear.Spectral
import SmoothOpt.Proofs.Problem.Calculus

/-!
Second derivatives, and problems whose derivative callbacks are exact.

The Hessian of a function is the matrix of the gradients of the entries of its gradient. A problem
is exact at a point when its callbacks succeed, those for gradients and Jacobians give the first
derivatives of the functions that the others evaluate, and the Hessian callback writes the weighted
sum of the second derivatives.
-/
namespace SmoothOpt

open Linear

variable {n : Nat}

namespace GradientAt

variable {f f' : Vector ℝ n → ℝ} {g g' : Fin n → ℝ} {x : Vector ℝ n}

/-- The function and its gradient may be written in another way. -/
theorem congr (h : GradientAt f g x) (same : ∀ u, f' u = f u) (entries : ∀ i, g' i = g i) :
    GradientAt f' g' x := by
  obtain rfl : f' = f := funext same
  obtain rfl : g' = g := funext entries
  exact h

/-- In the gradient of a product of variables each entry is the product of the other variables. -/
theorem product (s : Finset (Fin n)) (x : Vector ℝ n) :
    GradientAt (fun u => ∏ k ∈ s, u.get k)
      (fun i => if i ∈ s then ∏ k ∈ s.erase i, x.get k else 0) x := by
  have form : linearForm (fun i => if i ∈ s then ∏ k ∈ s.erase i, x.get k else 0) =
      ∑ i ∈ s, (∏ k ∈ s.erase i, x.get k) • ContinuousLinearMap.proj (R := ℝ) i := by
    ext u
    simp [Finset.sum_ite_mem]
  rw [GradientAt, form]
  simp only [Vector.get_ofFn]
  exact HasFDerivAt.finsetProd fun i _ => hasFDerivAt_apply i x.get

end GradientAt

/-- The function `f` has a gradient everywhere, and the rows of `h` are the gradients of its entries
at `x`. -/
def HessianAt (f : Vector ℝ n → ℝ) (h : Fin n → Fin n → ℝ) (x : Vector ℝ n) : Prop :=
  ∃ g : Vector ℝ n → Fin n → ℝ, (∀ u, GradientAt f (g u) u) ∧
    ∀ i, GradientAt (fun u => g u i) (h i) x

/-- A function with a constant gradient has no second derivatives. -/
theorem HessianAt.of_constant {f : Vector ℝ n → ℝ} {g : Fin n → ℝ} (h : ∀ u, GradientAt f g u)
    (x : Vector ℝ n) : HessianAt f 0 x :=
  ⟨fun _ => g, h, fun i => .const (g i) x⟩

namespace Functions

variable {d : Dims}

/-- The matrices `hess w yc yd` are symmetric, and each is `w` times the Hessian of the objective at
`x` plus the Hessians of the constraints, each times its multiplier. -/
structure HessiansAt (F : Functions ℝ d)
    (hess : ℝ → Vector ℝ d.mEq → Vector ℝ d.mIneq → Dense ℝ d.n d.n) (x : Vector ℝ d.n) : Prop where
  symmetric : ∀ w yc yd, (hess w yc yd).Symmetric
  weighted : ∃ (hf : Fin d.n → Fin d.n → ℝ) (hc : Fin d.mEq → Fin d.n → Fin d.n → ℝ)
    (hd : Fin d.mIneq → Fin d.n → Fin d.n → ℝ),
    HessianAt F.objective hf x ∧
    (∀ r, HessianAt (fun u => (F.equalities u).get r) (hc r) x) ∧
    (∀ j, HessianAt (fun u => (F.inequalities u).get j) (hd j) x) ∧
    ∀ w yc yd i k, (hess w yc yd).entry i k =
      w * hf i k + ∑ r, yc.get r * hc r i k + ∑ j, yd.get j * hd j i k

end Functions

section Callbacks

variable {σ β : Type} {d : Dims}

/-- The call succeeds whenever it is made, and leaves `v` in a place that held `old`. -/
def LeavesOver (old : β) (call : StateM σ (Reply β)) (v : β) : Prop :=
  ∀ w, (call.run w).1.ok = true ∧ (call.run w).1.onto old = v

/-- The call succeeds whenever it is made, and leaves `v` whatever was there. -/
def Leaves (call : StateM σ (Reply β)) (v : β) : Prop := ∀ old, LeavesOver old call v

theorem leaves_good (v : β) : Leaves (pure (.good v) : StateM σ (Reply β)) v :=
  fun _ _ => ⟨rfl, rfl⟩

/-- There is nothing to write to a vector without entries. -/
theorem leaves_silent (v : Vector β 0) : Leaves (pure (.silent true) : StateM σ (Reply _)) v :=
  fun _ _ => ⟨rfl, ext_get fun i => i.elim0⟩

/-- The callbacks succeed everywhere, evaluate the functions `F`, and write the matrices `hess` over
zero matrices. -/
structure Problem.Evaluates (p : Problem ℝ σ d) (F : Functions ℝ d)
    (hess : Vector ℝ d.n → ℝ → Vector ℝ d.mEq → Vector ℝ d.mIneq → Dense ℝ d.n d.n) : Prop where
  objective : ∀ x newX, Leaves (p.objective x newX) (F.objective x)
  equalities : ∀ x newX, Leaves (p.equalities x newX) (F.equalities x)
  inequalities : ∀ x newX, Leaves (p.inequalities x newX) (F.inequalities x)
  gradient : ∀ x newX, Leaves (p.gradient x newX) (F.gradient x)
  equalityJacobian : ∀ x newX, Leaves (p.equalityJacobian x newX) (F.equalityJacobian x)
  inequalityJacobian : ∀ x newX, Leaves (p.inequalityJacobian x newX) (F.inequalityJacobian x)
  providesHessian : p.providesHessian = true
  hessian : ∀ x newX w yc yd,
    LeavesOver Dense.zeros (p.hessian x newX w yc yd) (hess x w yc yd)

/-- At `x` the callbacks for derivatives give the derivatives of what the other callbacks give. -/
def Problem.ExactAt (p : Problem ℝ σ d) (x : Vector ℝ d.n) : Prop :=
  ∃ F hess, p.Evaluates F hess ∧ F.ExactAt x ∧ F.HessiansAt (hess x) x

end Callbacks

end SmoothOpt
