import Mathlib
import SmoothOpt.Proofs.Linear.Entries
import SmoothOpt.Proofs.Problem.Functions

/-!
Derivatives of functions of a vector.

A vector is read as a point of `Fin n → ℝ`, where differentiability is that of the library, and a
gradient is the vector of coefficients of the derivative. A Jacobian is a matrix whose rows are the
gradients of the components. This says what it means for the derivatives of a problem to be exact.
-/
namespace SmoothOpt

open Linear

variable {n m : Nat}

theorem ofFn_get (x : Vector ℝ n) : Vector.ofFn x.get = x := by
  apply ext_get
  intro i
  rw [Vector.get_ofFn]

noncomputable def linearForm (g : Fin n → ℝ) : (Fin n → ℝ) →L[ℝ] ℝ :=
  ∑ i, g i • ContinuousLinearMap.proj i

@[simp] theorem linearForm_apply (g u : Fin n → ℝ) : linearForm g u = ∑ i, g i * u i := by
  simp [linearForm]

def firstEntries (n m : Nat) : (Fin (n + m) → ℝ) →L[ℝ] (Fin n → ℝ) :=
  ContinuousLinearMap.pi fun i => ContinuousLinearMap.proj (i.castAdd m)

/-- The function `f` is differentiable at `x`, and its gradient there is `g`. -/
def GradientAt (f : Vector ℝ n → ℝ) (g : Fin n → ℝ) (x : Vector ℝ n) : Prop :=
  HasFDerivAt (fun u : Fin n → ℝ => f (Vector.ofFn u)) (linearForm g) x.get

/-- The rows of `j` are the gradients of the components of `f` at `x`. -/
def JacobianAt (f : Vector ℝ n → Vector ℝ m) (j : Dense ℝ m n) (x : Vector ℝ n) : Prop :=
  ∀ r, GradientAt (fun u => (f u).get r) (j.entry r) x

namespace GradientAt

variable {f f' : Vector ℝ n → ℝ} {g g' : Fin n → ℝ} {x : Vector ℝ n}

theorem const (a : ℝ) (x : Vector ℝ n) : GradientAt (fun _ => a) 0 x := by
  have form : linearForm (0 : Fin n → ℝ) = 0 := by
    ext u
    simp
  rw [GradientAt, form]
  exact hasFDerivAt_const a x.get

theorem coordinate (i : Fin n) (x : Vector ℝ n) :
    GradientAt (fun u => u.get i) (Pi.single i 1) x := by
  have form : linearForm (Pi.single i 1) = ContinuousLinearMap.proj (R := ℝ) i := by
    ext u
    simp [Pi.single_apply]
  simp only [GradientAt, Vector.get_ofFn]
  rw [form]
  exact hasFDerivAt_apply i x.get

theorem add (h : GradientAt f g x) (h' : GradientAt f' g' x) :
    GradientAt (fun u => f u + f' u) (g + g') x := by
  have form : linearForm (g + g') = linearForm g + linearForm g' := by
    ext u
    simp [add_mul, Finset.sum_add_distrib]
  rw [GradientAt, form]
  exact HasFDerivAt.add h h'

theorem const_mul (h : GradientAt f g x) (a : ℝ) : GradientAt (fun u => a * f u) (a • g) x := by
  have form : linearForm (a • g) = a • linearForm g := by
    ext u
    simp [mul_assoc, Finset.mul_sum]
  rw [GradientAt, form]
  exact HasFDerivAt.const_mul h a

theorem sub (h : GradientAt f g x) (h' : GradientAt f' g' x) :
    GradientAt (fun u => f u - f' u) (g - g') x := by
  have negated := h.add (h'.const_mul (-1))
  simp only [neg_smul, one_smul, neg_one_mul, ← sub_eq_add_neg] at negated
  exact negated

theorem mul (h : GradientAt f g x) (h' : GradientAt f' g' x) :
    GradientAt (fun u => f u * f' u) (f x • g' + f' x • g) x := by
  have form : linearForm (f x • g' + f' x • g) =
      f (Vector.ofFn x.get) • linearForm g' + f' (Vector.ofFn x.get) • linearForm g := by
    ext u
    simp [ofFn_get, add_mul, mul_assoc, Finset.mul_sum, Finset.sum_add_distrib]
  rw [GradientAt, form]
  exact HasFDerivAt.mul h h'

theorem sum {ι : Type} {s : Finset ι} {f : ι → Vector ℝ n → ℝ} {g : ι → Fin n → ℝ}
    (h : ∀ k ∈ s, GradientAt (f k) (g k) x) :
    GradientAt (fun u => ∑ k ∈ s, f k u) (∑ k ∈ s, g k) x := by
  have form : linearForm (∑ k ∈ s, g k) = ∑ k ∈ s, linearForm (g k) := by
    ext u
    simp only [linearForm_apply, Finset.sum_apply, Finset.sum_mul, sum_apply]
    exact Finset.sum_comm
  rw [GradientAt, form]
  exact HasFDerivAt.fun_sum h

/-- The slope along a straight line is the sum of the products of gradient and direction. -/
theorem along (h : GradientAt f g x) (v : Fin n → ℝ) :
    HasDerivAt (fun t : ℝ => f (Vector.ofFn fun i => x.get i + t * v i)) (∑ i, g i * v i) 0 := by
  have line : HasDerivAt (fun (t : ℝ) i => x.get i + t * v i) v 0 := by
    rw [hasDerivAt_pi]
    intro i
    exact (((hasDerivAt_id' 0).mul_const (v i)).const_add (x.get i)).congr_deriv (one_mul _)
  have start : (fun i => x.get i + 0 * v i) = x.get := by
    funext i
    rw [zero_mul, add_zero]
  rw [GradientAt, ← start] at h
  exact (h.comp_hasDerivAt 0 line).congr_deriv (linearForm_apply g v)

/-- A function of the first entries has no slope along the others. -/
theorem comp_firstPart {z : Vector ℝ (n + m)} (h : GradientAt f g (firstPart z)) :
    GradientAt (fun u => f (firstPart u)) (Fin.append g 0) z := by
  have entries : (firstPart z).get = firstEntries n m z.get := by
    funext i
    exact get_firstPart z i
  have form : linearForm (Fin.append g 0) = (linearForm g).comp (firstEntries n m) := by
    ext u
    simp [Fin.sum_univ_add, firstEntries]
  have parts : (fun u : Fin (n + m) → ℝ => f (firstPart (Vector.ofFn u))) =
      (fun u : Fin n → ℝ => f (Vector.ofFn u)) ∘ firstEntries n m := by
    funext u
    simp only [Function.comp_apply, firstPart, Vector.get_ofFn]
    rfl
  rw [GradientAt, entries] at h
  rw [GradientAt, form, parts]
  exact HasFDerivAt.comp z.get h (firstEntries n m).hasFDerivAt

end GradientAt

namespace Functions

variable {d : Dims} {F : Functions ℝ d} {x : Vector ℝ d.n}

/-- The gradient and the Jacobians at `x` are the derivatives of the functions there. -/
structure ExactAt (F : Functions ℝ d) (x : Vector ℝ d.n) : Prop where
  objective : GradientAt F.objective (F.gradient x).get x
  equalities : JacobianAt F.equalities (F.equalityJacobian x) x
  inequalities : JacobianAt F.inequalities (F.inequalityJacobian x) x

/-- Gradient of `w f + ycᵀ c + ydᵀ d` for an objective weight `w`. -/
noncomputable def lagrangianSlope (F : Functions ℝ d) (w : ℝ) (yc : Vector ℝ d.mEq)
    (yd : Vector ℝ d.mIneq) (u : Vector ℝ d.n) (i : Fin d.n) : ℝ :=
  w * (F.gradient u).get i + ∑ r, (F.equalityJacobian u).entry r i * yc.get r
    + ∑ j, (F.inequalityJacobian u).entry j i * yd.get j

/-- The matrices `hess w yc yd` are the second derivatives of `w f + ycᵀ c + ydᵀ d` at `x`, so all
functions are twice differentiable there. -/
def CurvatureAt (F : Functions ℝ d)
    (hess : ℝ → Vector ℝ d.mEq → Vector ℝ d.mIneq → Dense ℝ d.n d.n) (x : Vector ℝ d.n) : Prop :=
  ∀ w yc yd i, GradientAt (fun u => F.lagrangianSlope w yc yd u i) ((hess w yc yd).entry i) x

variable {hess : ℝ → Vector ℝ d.mEq → Vector ℝ d.mIneq → Dense ℝ d.n d.n}

theorem CurvatureAt.equalityJacobian (h : F.CurvatureAt hess x) (r : Fin d.mEq) (i : Fin d.n) :
    ∃ g, GradientAt (fun u => (F.equalityJacobian u).entry r i) g x := by
  have row := h 0 (spike r 1) (Vector.replicate _ 0) i
  simp only [lagrangianSlope, get_spike, Vector.get_replicate, zero_mul, zero_add, mul_ite, mul_one,
    mul_zero, Finset.sum_ite_eq', Finset.mem_univ, if_true, Finset.sum_const_zero, add_zero] at row
  exact ⟨_, row⟩

theorem CurvatureAt.inequalityJacobian (h : F.CurvatureAt hess x) (j : Fin d.mIneq) (i : Fin d.n) :
    ∃ g, GradientAt (fun u => (F.inequalityJacobian u).entry j i) g x := by
  have row := h 0 (Vector.replicate _ 0) (spike j 1) i
  simp only [lagrangianSlope, get_spike, Vector.get_replicate, zero_mul, zero_add, mul_ite, mul_one,
    mul_zero, Finset.sum_ite_eq', Finset.mem_univ, if_true, Finset.sum_const_zero] at row
  exact ⟨_, row⟩

end Functions

end SmoothOpt
