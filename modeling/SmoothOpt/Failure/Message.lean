import SmoothOpt.Failure
import SmoothOpt.Decimal.Text

/-!
The wording of every failure, for double precision values.
-/
namespace SmoothOpt

open Decimal

def Quantity.callback : Quantity → String
  | .objective => "eval_f"
  | .gradient => "eval_grad_f"
  | .equalities => "eval_c"
  | .inequalities => "eval_d"
  | .equalityJacobian => "eval_jac_c"
  | .inequalityJacobian => "eval_jac_d"
  | .hessian => "eval_hess_lagr"
  | .residuals => "eval_residuals"

def quotedChar (c : Char) : String :=
  match c with
  | '"' => "\\\""
  | '\\' => "\\\\"
  | '\n' => "\\n"
  | '\r' => "\\r"
  | '\t' => "\\t"
  | '\x00' => "\\0"
  | c =>
    if c.toNat < 32 || c.toNat = 127 then
      "\\u\x7b" ++ String.ofList (Nat.toDigits 16 c.toNat) ++ "\x7d"
    else c.toString

/-- A text between quotes, with its quotes, backslashes and control characters escaped. -/
def quoted (s : String) : String := "\"" ++ String.join (s.toList.map quotedChar) ++ "\""

def OptionValue.message : OptionValue Float → String
  | .numeric v => "Numeric(" ++ tagged v ++ ")"
  | .integer v => "Integer(" ++ toString v ++ ")"
  | .text s => "Str(" ++ quoted s ++ ")"

def ProblemFault.message : ProblemFault Float → String
  | .noVariables => "problem has no variables"
  | .tooManyEqualities mEq n =>
    toString mEq ++ " equality constraints exceed " ++ toString n ++ " variables"
  | .variableBoundsFailed => "var_bounds callback failed"
  | .inequalityBoundsFailed => "ineq_bounds callback failed"
  | .variableBoundUndefined i => "bound of variable " ++ toString i ++ " is NaN"
  | .variableBoundsCrossed i lo hi =>
    "Variable " ++ toString i ++ " has lower bound " ++ plain lo ++ " > upper bound " ++ plain hi
  | .variableFixed i v =>
    "Variable " ++ toString i ++ " is fixed (xl = xu = " ++ plain v ++ "); set fixed_var = relax"
  | .inequalityBoundUndefined j => "bound of inequality " ++ toString j ++ " is NaN"
  | .inequalityBoundsCrossed j lo hi =>
    "Inequality " ++ toString j ++ " has lower bound " ++ plain lo ++ " > upper bound " ++ plain hi
  | .inequalityUnbounded j => "Inequality " ++ toString j ++ " has no finite bound"
  | .inequalityFixed j v =>
    "Inequality " ++ toString j ++ " has equal bounds (dl = du = " ++ plain v ++
      "); move it to c(x) or set fixed_var = relax"
  | .startFailed => "get_starting_point failed"
  | .startNotFinite => "starting point is not finite"

def OptionFault.message : OptionFault Float → String
  | .unknown name => "unknown option '" ++ name ++ "'"
  | .notNumber name got => "option '" ++ name ++ "' expects a number, got " ++ got.message
  | .notPositive name => "option '" ++ name ++ "' must be positive"
  | .outsideUnit name got => "option '" ++ name ++ "' must lie in (0, 1), got " ++ plain got
  | .outsideRange name lo hi got =>
    "option '" ++ name ++ "' must lie in [" ++ plain lo ++ ", " ++
      (match hi with | some v => plain v | none => "inf") ++ "], got " ++ plain got
  | .notCount name got =>
    "option '" ++ name ++ "' expects a non-negative integer, got " ++ got.message
  | .notKeyword name got => "option '" ++ name ++ "' expects a string, got " ++ got.message
  | .badKeyword name got => "option '" ++ name ++ "' does not accept '" ++ got ++ "'"
  | .noHessian => "hessian = exact but the problem provides no Hessian"
  | .penaltyNotPositive got => "rho0 must be positive, got " ++ plain got

def NewtonFault.message : NewtonFault Float → String
  | .dimensionMismatch s =>
    "dimension mismatch: n = " ++ toString s.n ++ ", m_eq = " ++ toString s.mEq ++
      ", m_ineq = " ++ toString s.mIneq
  | .nonFiniteMatrix => "KKT matrix has non-finite entries"
  | .inertiaCorrectionFailed w =>
    "inertia correction failed (delta_w exceeded " ++ scientific 1 w ++ ")"
  | .nonFiniteSolution => "KKT solution is not finite"

def Failure.message : Failure Float → String
  | .invalidProblem cause => "Invalid problem: " ++ cause.message
  | .invalidOption cause => "Invalid option: " ++ cause.message
  | .evaluation what => "Evaluation of " ++ what.callback ++ " failed"
  | .newton cause => "KKT solve failed: " ++ cause.message
  | .lineSearch alpha =>
    "Line search failed: step length " ++ scientific 3 alpha ++ " below minimum"

end SmoothOpt
