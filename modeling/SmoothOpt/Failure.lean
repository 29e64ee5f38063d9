import SmoothOpt.Dims

/-!
Why a solver cannot be set up or cannot go on. Causes carry the values they are about; their
wording is in `SmoothOpt.Failure.Message`.
-/
namespace SmoothOpt

/-- A quantity of the problem that is evaluated at a point. -/
inductive Quantity where
  | objective
  | gradient
  | equalities
  | inequalities
  | equalityJacobian
  | inequalityJacobian
  | hessian
  /-- Penalty vector and projected gradient of the augmented Lagrangian. -/
  | residuals
  deriving DecidableEq, Repr

inductive ProblemFault (α : Type) where
  | noVariables
  | tooManyEqualities (mEq n : Nat)
  | variableBoundsFailed
  | inequalityBoundsFailed
  | variableBoundUndefined (i : Nat)
  | variableBoundsCrossed (i : Nat) (lo hi : α)
  | variableFixed (i : Nat) (value : α)
  | inequalityBoundUndefined (j : Nat)
  | inequalityBoundsCrossed (j : Nat) (lo hi : α)
  | inequalityUnbounded (j : Nat)
  | inequalityFixed (j : Nat) (value : α)
  | startFailed
  | startNotFinite
  deriving DecidableEq, Repr

inductive OptionValue (α : Type) where
  | numeric (v : α)
  | integer (v : Int)
  | text (s : String)
  deriving DecidableEq, Repr

inductive OptionFault (α : Type) where
  | unknown (name : String)
  | notNumber (name : String) (got : OptionValue α)
  | notPositive (name : String)
  | outsideUnit (name : String) (got : α)
  /-- Outside `[lo, hi]`, where a missing `hi` stands for infinity. -/
  | outsideRange (name : String) (lo : α) (hi : Option α) (got : α)
  | notCount (name : String) (got : OptionValue α)
  | notKeyword (name : String) (got : OptionValue α)
  | badKeyword (name : String) (got : String)
  | noHessian
  | penaltyNotPositive (got : α)
  deriving DecidableEq, Repr

inductive NewtonFault (α : Type) where
  | dimensionMismatch (sizes : Dims)
  | nonFiniteMatrix
  | inertiaCorrectionFailed (deltaWMax : α)
  | nonFiniteSolution
  deriving DecidableEq, Repr

inductive Failure (α : Type) where
  | invalidProblem (cause : ProblemFault α)
  | invalidOption (cause : OptionFault α)
  | evaluation (what : Quantity)
  | newton (cause : NewtonFault α)
  | lineSearch (alpha : α)
  deriving DecidableEq, Repr

end SmoothOpt
