import SmoothOpt.Decimal.Shortest

/-!
The texts in which this program writes its numbers.

* `plain`: the shortest digits that read back, never with an exponent;
* `tagged`: the same digits, but an integer keeps `.0` and very small or large magnitudes take an
  exponent;
* `scientific` and `fixed`: a fixed number of places after the point;
* `compact`: given digits as `d.ddde<exp>` without trailing zeros.

Undefined values are written `NaN` and infinities `inf`; a negative zero keeps its sign.
-/
namespace SmoothOpt.Decimal

def paddedDigits (width n : Nat) : String :=
  let s := String.ofList (Nat.toDigits 10 n)
  String.ofList (List.replicate (width - s.length) '0') ++ s

/-- Digits with a point before the last `places` of them. -/
def pointed (coefficient places : Nat) : String :=
  if places = 0 then String.ofList (Nat.toDigits 10 coefficient)
  else
    let whole := coefficient / tenPow places
    let part := coefficient % tenPow places
    String.ofList (Nat.toDigits 10 whole) ++ "." ++ paddedDigits places part

def Digits.positional (d : Digits) : String :=
  if 0 ≤ d.exponent then String.ofList (Nat.toDigits 10 (d.coefficient * tenPow d.exponent.toNat))
  else pointed d.coefficient (-d.exponent).toNat

/-- A decimal number with one digit before the point and an exponent. -/
def Digits.exponential (d : Digits) : String :=
  let places := digitCount d.coefficient - 1
  pointed d.coefficient places ++ "e" ++ toString (d.exponent + places)

def signMark (negative : Bool) : String := if negative then "-" else ""

/-- Shortest digits that read back, never an exponent: `0.0000001`, `-0`, `inf`. -/
def plain (x : Float) : String :=
  match Reading.ofFloat x with
  | .undefined => "NaN"
  | .infinite s => signMark s ++ "inf"
  | .zero s => signMark s ++ "0"
  | .finite s v => signMark s ++ v.shortest.positional

/-- Shortest digits that read back, with `.0` on integers and an exponent below `1e-4` and from
`1e16` on. -/
def tagged (x : Float) : String :=
  match Reading.ofFloat x with
  | .undefined => "NaN"
  | .infinite s => signMark s ++ "inf"
  | .zero s => signMark s ++ "0.0"
  | .finite s v =>
    let d := v.shortest
    let lead := d.exponent + digitCount d.coefficient - 1
    signMark s ++
      if lead < -4 || 16 ≤ lead then d.exponential
      else if 0 ≤ d.exponent then d.positional ++ ".0"
      else d.positional

/-- One digit, `places` more after the point, and an exponent: `7.617e-3`. -/
def scientific (places : Nat) (x : Float) : String :=
  match Reading.ofFloat x with
  | .undefined => "NaN"
  | .infinite s => signMark s ++ "inf"
  | .zero s => signMark s ++ pointed 0 places ++ "e0"
  | .finite s v => signMark s ++ (v.significant (places + 1)).exponential

def fixed (places : Nat) (x : Float) : String :=
  match Reading.ofFloat x with
  | .undefined => "NaN"
  | .infinite s => signMark s ++ "inf"
  | .zero s => signMark s ++ pointed 0 places
  | .finite s v => signMark s ++ (v.roundAt (-(places : Int))).positional

/-- How many digits a compact text keeps: a count of significant digits, or decimals as long as
the magnitude is below one. -/
inductive Precision where
  | significant (digits : Nat)
  | mixed (digits : Nat)
  deriving DecidableEq, Repr

def Precision.round (p : Precision) (v : Dyadic) : Digits :=
  match p with
  | .significant k => v.significant k
  | .mixed k => if 0 ≤ v.leading then v.significant k else v.roundAt (-(k : Int))

/-- Mantissa and exponent without trailing zeros: `1e0`, `-2.5e-3`; either zero is `0`. -/
def compact (p : Precision) (x : Float) : String :=
  match Reading.ofFloat x with
  | .undefined => "nan"
  | .infinite s => signMark s ++ "inf"
  | .zero _ => "0"
  | .finite s v =>
    let d := p.round v
    if d.coefficient = 0 then "0" else signMark s ++ d.trim.exponential

def padLeft (width : Nat) (s : String) : String :=
  String.ofList (List.replicate (width - s.length) ' ') ++ s

def padRight (width : Nat) (s : String) : String :=
  s ++ String.ofList (List.replicate (width - s.length) ' ')

end SmoothOpt.Decimal
