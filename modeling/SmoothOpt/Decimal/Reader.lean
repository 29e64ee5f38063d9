/-!
Reading numbers from text.

An integer is an optional sign and digits within the 64-bit range. A real number also allows a
point with digits on at least one side, an exponent, and the words `inf`, `infinity` and `nan` in
any case. A magnitude outside the range of doubles reads as infinity or zero.
-/
namespace SmoothOpt.Decimal

/-- The value of a run of digits, `none` when some character is no digit. -/
def digitsValue? (cs : List Char) : Option Nat :=
  if cs.all Char.isDigit then some (cs.foldl (fun acc c => 10 * acc + (c.toNat - 48)) 0) else none

def splitSign : List Char → Bool × List Char
  | '-' :: rest => (true, rest)
  | '+' :: rest => (false, rest)
  | cs => (false, cs)

def signedDigits? (cs : List Char) : Option Int := do
  let (negative, ds) := splitSign cs
  if ds.isEmpty then none
  let n ← digitsValue? ds
  return if negative then -(n : Int) else n

/-- Whether an integer lies between `-2^63` and `2^63 - 1`. -/
def fitsWord (v : Int) : Bool := decide (-9223372036854775808 ≤ v ∧ v < 9223372036854775808)

/-- An integer of 64 bits. -/
def readInteger (s : String) : Option Int := do
  let v ← signedDigits? s.toList
  if fitsWord v then some v else none

/-- The double nearest to `mantissa * 10 ^ exponent`. Exponents beyond the range of doubles are
settled before any power is formed. -/
def ofParts (mantissa : Nat) (exponent : Int) : Float :=
  let size := (Nat.toDigits 10 mantissa).length
  if mantissa = 0 then 0.0
  else if exponent + size > 400 then 1.0 / 0.0
  else if exponent + size < -400 then 0.0
  else Float.ofScientific mantissa (exponent < 0) exponent.natAbs

/-- Digits, an optional point and an optional exponent. -/
def readUnsigned (cs : List Char) : Option Float := do
  let whole := cs.takeWhile Char.isDigit
  let rest := cs.dropWhile Char.isDigit
  let (part, rest) := match rest with
    | '.' :: tail => (tail.takeWhile Char.isDigit, tail.dropWhile Char.isDigit)
    | _ => ([], rest)
  if whole.isEmpty && part.isEmpty then none
  let mantissa ← digitsValue? (whole ++ part)
  let exponent ← match rest with
    | [] => some 0
    | c :: tail => if c = 'e' ∨ c = 'E' then signedDigits? tail else none
  return ofParts mantissa (exponent - part.length)

def readReal (s : String) : Option Float := do
  let (negative, cs) := splitSign s.toList
  let word := String.ofList (cs.map Char.toLower)
  let v ← if word = "inf" ∨ word = "infinity" then some (1.0 / 0.0)
    else if word = "nan" then some (0.0 / 0.0)
    else readUnsigned cs
  return if negative then -v else v

end SmoothOpt.Decimal
