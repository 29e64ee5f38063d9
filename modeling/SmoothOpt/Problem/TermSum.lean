import SmoothOpt.Problem
import SmoothOpt.Scalar.Double

/-!
Problems whose functions are sums of monomials and of elementary functions of affine forms, with
their exact derivatives.
-/
namespace SmoothOpt

open Linear

inductive Elementary where
  | exp
  | ln
  | sqrt
  | sin
  | cos
  | recip
  deriving DecidableEq, Repr

namespace Elementary

def value : Elementary → Float → Float
  | exp, u => u.exp
  | ln, u => u.log
  | sqrt, u => u.sqrt
  | sin, u => u.sin
  | cos, u => u.cos
  | recip, u => 1.0 / u

def derivative : Elementary → Float → Float
  | exp, u => u.exp
  | ln, u => 1.0 / u
  | sqrt, u => 0.5 / u.sqrt
  | sin, u => u.cos
  | cos, u => -u.sin
  | recip, u => -1.0 / (u * u)

def secondDerivative : Elementary → Float → Float
  | exp, u => u.exp
  | ln, u => -1.0 / (u * u)
  | sqrt, u => -0.25 / (u * u.sqrt)
  | sin, u => -u.sin
  | cos, u => -u.cos
  | recip, u => 2.0 / (u * u * u)

end Elementary

inductive Term where
  /-- `k` times the powers of distinct variables. -/
  | monomial (k : Float) (powers : List (Nat × Nat))
  /-- `k` times a function of an affine form. -/
  | composite (k : Float) (fn : Elementary) (coefficients : List (Nat × Float)) (offset : Float)
  deriving Repr

namespace Term

variable {n : Nat}

/-- The entry at a position, zero outside the vector. -/
def coordinate (x : Vector Float n) (i : Nat) : Float := x.toArray.getD i 0.0

def powerProduct (x : Vector Float n) (powers : List (Nat × Nat)) : Float :=
  powers.foldl (fun acc (i, p) =>
    (List.replicate p (coordinate x i)).foldl (· * ·) acc) 1.0

/-- The factor and the powers left after one derivative in variable `i`; `none` if it vanishes. -/
def lowered (i : Nat) : List (Nat × Nat) → Option (Nat × List (Nat × Nat))
  | [] => none
  | (j, p) :: rest =>
    if j = i then if p = 0 then none else some (p, (j, p - 1) :: rest)
    else (lowered i rest).map fun (q, rest) => (q, (j, p) :: rest)

def affine (x : Vector Float n) (coefficients : List (Nat × Float)) (offset : Float) : Float :=
  coefficients.foldl (fun acc (i, c) => acc + c * coordinate x i) offset

def value (x : Vector Float n) : Term → Float
  | monomial k powers => k * powerProduct x powers
  | composite k fn cs b => k * fn.value (affine x cs b)

def partialAt (x : Vector Float n) (i : Nat) : Term → Float
  | monomial k powers => match lowered i powers with
    | none => 0.0
    | some (p, powers) => k * p.toFloat * powerProduct x powers
  | composite k fn cs b => match cs.lookup i with
    | none => 0.0
    | some c => k * fn.derivative (affine x cs b) * c

def secondPartialAt (x : Vector Float n) (i j : Nat) : Term → Float
  | monomial k powers => match lowered i powers with
    | none => 0.0
    | some (p, powers) => match lowered j powers with
      | none => 0.0
      | some (q, powers) => k * p.toFloat * q.toFloat * powerProduct x powers
  | composite k fn cs b => match cs.lookup i, cs.lookup j with
    | some ci, some cj => k * fn.secondDerivative (affine x cs b) * ci * cj
    | _, _ => 0.0

end Term

abbrev TermSum := List Term

namespace TermSum

variable {n : Nat}

def value (t : TermSum) (x : Vector Float n) : Float := t.foldl (fun acc s => acc + s.value x) 0.0

def gradient (t : TermSum) (x : Vector Float n) : Vector Float n :=
  Vector.ofFn fun i => t.foldl (fun acc s => acc + s.partialAt x i.val) 0.0

def hessian (t : TermSum) (x : Vector Float n) : Dense Float n n :=
  Dense.ofFn fun i j => t.foldl (fun acc s => acc + s.secondPartialAt x i.val j.val) 0.0

end TermSum

structure TermProblem (d : Dims) where
  f : TermSum
  eq : Vector TermSum d.mEq
  ineq : Vector TermSum d.mIneq
  xl : Vector Float d.n
  xu : Vector Float d.n
  dl : Vector Float d.mIneq
  du : Vector Float d.mIneq
  start : Vector Float d.n
  providesHessian : Bool

namespace TermProblem

variable {d : Dims}

/-- Hessian of the weighted sum of all functions. -/
def lagrangianHessian (t : TermProblem d) (x : Vector Float d.n) (w : Float)
    (yc : Vector Float d.mEq) (yd : Vector Float d.mIneq) : Dense Float d.n d.n :=
  let weighted (acc : Dense Float d.n d.n) (p : TermSum × Float) : Dense Float d.n d.n :=
    acc.add ((p.1.hessian x).scale p.2)
  let objective := (t.f.hessian x).scale w
  (t.ineq.zip yd).foldl weighted ((t.eq.zip yc).foldl weighted objective)

def problem (t : TermProblem d) : Problem Float Unit d where
  variableBounds := pure (.good (t.xl, t.xu))
  inequalityBounds := pure (.good (t.dl, t.du))
  start := pure (.good t.start)
  objective := fun x _ => pure (.good (t.f.value x))
  gradient := fun x _ => pure (.good (t.f.gradient x))
  equalities := fun x _ => pure (.good (t.eq.map (·.value x)))
  inequalities := fun x _ => pure (.good (t.ineq.map (·.value x)))
  equalityJacobian := fun x _ => pure (.good (t.eq.map (·.gradient x)))
  inequalityJacobian := fun x _ => pure (.good (t.ineq.map (·.gradient x)))
  providesHessian := t.providesHessian
  hessian := fun x _ w yc yd => pure (.good (t.lagrangianHessian x w yc yd))

end TermProblem

end SmoothOpt
