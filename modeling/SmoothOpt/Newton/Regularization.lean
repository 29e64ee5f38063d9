import SmoothOpt.Settings

/-!
The shifts tried until the Newton matrix has the inertia of a descent-producing system.

The primal shift is added to the diagonal of the primal blocks, the dual shift is subtracted on the
constraint diagonal. The first primal shift comes from the last one that helped, and later ones
grow geometrically up to a cap.
-/
namespace SmoothOpt.Newton

open Scalar

structure Regularization (α : Type) where
  deltaWInit : α
  deltaWMin : α
  deltaWMax : α
  /-- Factor applied to the last helpful shift. -/
  kappaMinus : α
  /-- Growth factor once some shift has helped. -/
  kappaPlus : α
  /-- Growth factor before that. -/
  kappaPlusBar : α
  deltaC : α
  /-- Exponent of the barrier parameter in the dual shift. -/
  kappaC : α

/-- What is remembered between solves. -/
structure ShiftMemory (α : Type) where
  /-- Last primal shift that helped, zero if none. -/
  deltaWLast : α
  primalBumps : Nat

variable {α : Type} [Scalar α]

def ShiftMemory.fresh : ShiftMemory α := ⟨0, 0⟩

def ShiftMemory.bumped (st : ShiftMemory α) (deltaW : α) : ShiftMemory α :=
  ⟨deltaW, st.primalBumps + 1⟩

namespace Regularization

def default : Regularization α where
  deltaWInit := 1e-4
  deltaWMin := 1e-20
  deltaWMax := 1e40
  kappaMinus := 1 / 3.0
  kappaPlus := 8.0
  kappaPlusBar := 100.0
  deltaC := 1e-8
  kappaC := 0.25

def ofSettings (s : InteriorSettings α) : Regularization α :=
  { (default : Regularization α) with
    deltaWInit := s.deltaWInit, deltaWMax := s.deltaWMax, deltaC := s.deltaC }

/-- Dual shift of a singular system at barrier parameter `mu`. -/
def dualShift (r : Regularization α) (mu : α) : α := r.deltaC * pow mu r.kappaC

def firstShift (r : Regularization α) (st : ShiftMemory α) : α :=
  if equals st.deltaWLast 0 then r.deltaWInit else maxNum r.deltaWMin (r.kappaMinus * st.deltaWLast)

def growth (r : Regularization α) (st : ShiftMemory α) : α :=
  if equals st.deltaWLast 0 then r.kappaPlusBar else r.kappaPlus

/-- The primal shift after `deltaW` did not help; `none` beyond the cap. -/
def nextShift (r : Regularization α) (st : ShiftMemory α) (deltaW : α) : Option α :=
  let next := r.growth st * deltaW
  if next ≤ r.deltaWMax then some next else none

/-- A bound on the number of shifts of one correction: `k` growths lead from the first shift past
the cap as soon as `k` reaches `ln (cap / first) / ln growth`. The constant leaves room for every
doubling chain of a floating-point range. -/
def budget (r : Regularization α) (st : ShiftMemory α) : Nat :=
  natCeil (ln (r.deltaWMax / r.firstShift st) / ln (r.growth st)) + 4096

end Regularization

end SmoothOpt.Newton
