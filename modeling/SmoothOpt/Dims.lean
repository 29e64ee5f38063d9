/-!
Sizes of a smooth nonlinear program

    minimize f(x)  subject to  c(x) = 0,  dl ≤ d(x) ≤ du,  xl ≤ x ≤ xu.
-/
namespace SmoothOpt

/-- Numbers of variables, of equalities `c` and of two-sided inequalities `d`. -/
structure Dims where
  n : Nat
  mEq : Nat
  mIneq : Nat
  deriving DecidableEq, Repr

def Dims.m (d : Dims) : Nat := d.mEq + d.mIneq

end SmoothOpt
