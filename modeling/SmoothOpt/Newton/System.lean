import SmoothOpt.Failure
import SmoothOpt.Linear.Norm
import SmoothOpt.Newton.Inertia
import SmoothOpt.Newton.Regularization

/-!
The Newton system of the barrier problem.

With unknowns `(dx, ds, dyc, dyd)` the matrix is

    W + Σx + δw I      0         Jcᵀ      Jdᵀ
         0         Σs + δw I      0       -I
         Jc            0       -δc I       0
         Jd           -I          0     -δc I

Its solution is a descent direction of the barrier problem only when the matrix has `n + mIneq`
positive, `mEq + mIneq` negative and no zero eigenvalues. The inertia is read off an
eigendecomposition, and the diagonal is shifted until it fits.
-/
namespace SmoothOpt.Newton

open Scalar Linear

structure Data (α : Type) (d : Dims) where
  hess : Dense α d.n d.n
  jacEq : Dense α d.mEq d.n
  jacIneq : Dense α d.mIneq d.n
  sigmaX : Vector α d.n
  sigmaS : Vector α d.mIneq
  rhsX : Vector α d.n
  rhsS : Vector α d.mIneq
  rhsEq : Vector α d.mEq
  rhsIneq : Vector α d.mIneq
  /-- Barrier parameter; it scales the dual shift. -/
  mu : α

/-- Step of the variables, the inequality slacks and the constraint multipliers, with the shifts
that were used. -/
structure Solution (α : Type) (d : Dims) where
  dx : Vector α d.n
  ds : Vector α d.mIneq
  dyc : Vector α d.mEq
  dyd : Vector α d.mIneq
  deltaW : α
  deltaC : α

abbrev size (d : Dims) : Nat := d.n + d.mIneq + d.mEq + d.mIneq

/-- The inertia of a descent-producing system. -/
def targetInertia (d : Dims) : Inertia := ⟨d.n + d.mIneq, d.mEq + d.mIneq, 0⟩

/-- A correction attempt that did not reach the target: the inertia found and the shift tried. -/
structure Rejected (α : Type) where
  inertia : Inertia
  deltaW : α

/-- What one solve gives: a solution or a fault, the memory of shifts for the next solve, and the
attempts on the way. -/
structure Outcome (α : Type) (d : Dims) where
  result : Except (NewtonFault α) (Solution α d)
  memory : ShiftMemory α
  rejected : List (Rejected α)

variable {α : Type} [Scalar α] {d : Dims}

namespace Data

def matrix (data : Data α d) (deltaW deltaC : α) : Dense α (size d) (size d) :=
  let zero (n : Nat) : Vector α n := Vector.replicate n 0
  let rowsX : Dense α d.n (size d) := Vector.ofFn fun i =>
    Vector.zipWith (· + ·) (data.hess.get i) (spike i (data.sigmaX.get i + deltaW))
      ++ zero d.mIneq ++ data.jacEq.column i ++ data.jacIneq.column i
  let rowsS : Dense α d.mIneq (size d) := Vector.ofFn fun j =>
    zero d.n ++ spike j (data.sigmaS.get j + deltaW) ++ zero d.mEq ++ spike j (-1 : α)
  let rowsEq : Dense α d.mEq (size d) := Vector.ofFn fun r =>
    data.jacEq.get r ++ zero d.mIneq ++ spike r (-deltaC) ++ zero d.mIneq
  let rowsIneq : Dense α d.mIneq (size d) := Vector.ofFn fun r =>
    data.jacIneq.get r ++ spike r (-1 : α) ++ zero d.mEq ++ spike r (-deltaC)
  rowsX ++ rowsS ++ rowsEq ++ rowsIneq

def rhs (data : Data α d) : Vector α (size d) :=
  data.rhsX ++ data.rhsS ++ data.rhsEq ++ data.rhsIneq

def isFinite (data : Data α d) : Bool :=
  allFinite data.hess.entries && allFinite data.jacEq.entries && allFinite data.jacIneq.entries
    && allFinite data.sigmaX.toList && allFinite data.sigmaS.toList

end Data

def Solution.ofVector (v : Vector α (size d)) (deltaW deltaC : α) : Solution α d where
  dx := firstPart (firstPart (firstPart v))
  ds := lastPart (firstPart (firstPart v))
  dyc := lastPart (firstPart v)
  dyd := lastPart v
  deltaW := deltaW
  deltaC := deltaC

variable [DenseSolver α]

/-- Raise the primal shift until the inertia fits: the shift and decomposition found, if any, and
the attempts before. -/
def raiseShift (r : Regularization α) (st : ShiftMemory α) (data : Data α d) (deltaC : α) :
    Nat → α → Option (α × ScaledEigen α (size d)) × List (Rejected α)
  | 0, _ => (none, [])
  | budget + 1, deltaW =>
    let e := factor (data.matrix deltaW deltaC)
    if e.inertia = targetInertia d then (some (deltaW, e), [])
    else
      let here : Rejected α := ⟨e.inertia, deltaW⟩
      match r.nextShift st deltaW with
      | none => (none, [here])
      | some next =>
        let (found, later) := raiseShift r st data deltaC budget next
        (found, here :: later)

/-- The dual shift and the decomposition to start from: the matrix is shifted only when the plain
one is singular. -/
def unraised (r : Regularization α) (data : Data α d) : α × ScaledEigen α (size d) :=
  let e := factor (data.matrix 0 0)
  if 0 < e.inertia.zero then
    let deltaC := r.dualShift data.mu
    (deltaC, factor (data.matrix 0 deltaC))
  else (0, e)

def finish (data : Data α d) (e : ScaledEigen α (size d)) (deltaW deltaC : α) :
    Except (NewtonFault α) (Solution α d) :=
  let v := e.solve data.rhs
  if allFinite v.toList then .ok (.ofVector v deltaW deltaC) else .error .nonFiniteSolution

/-- Solve the system, shifting its diagonal as needed. -/
def solve (r : Regularization α) (st : ShiftMemory α) (data : Data α d) : Outcome α d :=
  if !data.isFinite then ⟨.error .nonFiniteMatrix, st, []⟩
  else
    let (deltaC, e) := unraised r data
    if e.inertia = targetInertia d then ⟨finish data e 0 deltaC, st, []⟩
    else
      match raiseShift r st data deltaC (r.budget st) (r.firstShift st) with
      | (none, rejected) => ⟨.error (.inertiaCorrectionFailed r.deltaWMax), st, rejected⟩
      | (some (deltaW, e), rejected) => ⟨finish data e deltaW deltaC, st.bumped deltaW, rejected⟩

/-- Newton data of unchecked sizes. The Hessian's rows give the number of variables, the rows of
the Jacobians the numbers of constraints. -/
structure RawData (α : Type) where
  hess : List (List α)
  jacEq : List (List α)
  jacIneq : List (List α)
  sigmaX : List α
  sigmaS : List α
  rhsX : List α
  rhsS : List α
  rhsEq : List α
  rhsIneq : List α
  mu : α

def RawData.dims (raw : RawData α) : Dims := ⟨raw.hess.length, raw.jacEq.length, raw.jacIneq.length⟩

def sized? {β : Type} (n : Nat) (v : List β) : Option (Vector β n) :=
  if h : v.toArray.size = n then some ⟨v.toArray, h⟩ else none

def sizedRows? (m n : Nat) (rows : List (List α)) : Option (Dense α m n) := do
  sized? m (← rows.mapM (sized? n))

def RawData.sized? (raw : RawData α) : Option (Data α raw.dims) := do
  return {
    hess := ← sizedRows? _ _ raw.hess
    jacEq := ← sizedRows? _ _ raw.jacEq
    jacIneq := ← sizedRows? _ _ raw.jacIneq
    sigmaX := ← Newton.sized? _ raw.sigmaX
    sigmaS := ← Newton.sized? _ raw.sigmaS
    rhsX := ← Newton.sized? _ raw.rhsX
    rhsS := ← Newton.sized? _ raw.rhsS
    rhsEq := ← Newton.sized? _ raw.rhsEq
    rhsIneq := ← Newton.sized? _ raw.rhsIneq
    mu := raw.mu }

/-- Solve a system of unchecked sizes; sizes that disagree are a fault of their own. -/
def RawData.solve (r : Regularization α) (st : ShiftMemory α) (raw : RawData α) :
    Outcome α raw.dims :=
  match raw.sized? with
  | none => ⟨.error (.dimensionMismatch raw.dims), st, []⟩
  | some data => Newton.solve r st data

end SmoothOpt.Newton
