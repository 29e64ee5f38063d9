import SmoothOpt.Decimal.Rounding

/-!
The fewest decimal digits that read back as a given double.

The reals that round to a double form an interval around it; its ends belong to it exactly when
the mantissa is even. For one, two, ... digits the value's two neighbours on that decimal grid are
tested, and the first grid with a hit wins. Seventeen digits always suffice.
-/
namespace SmoothOpt.Decimal

/-- The interval of reals that read back as the value, as three numerators over one denominator:
lower end, value, upper end. Below a power of two the gap to the neighbour is half as wide. -/
def Dyadic.interval (v : Dyadic) : Nat × Nat × Nat × Nat :=
  let lowGap := if v.mantissa = twoPow 52 ∧ -1074 < v.exponent then 1 else 2
  let lo := 4 * v.mantissa - lowGap
  let mid := 4 * v.mantissa
  let hi := 4 * v.mantissa + 2
  if 0 ≤ v.exponent then
    let s := twoPow v.exponent.toNat
    (lo * s, mid * s, hi * s, 4)
  else (lo, mid, hi, 4 * twoPow (-v.exponent).toNat)

def Dyadic.readsBack (v : Dyadic) (d : Digits) : Bool :=
  let (lo, _, hi, den) := v.interval
  let (num, scale) := if 0 ≤ d.exponent then (d.coefficient * tenPow d.exponent.toNat, 1)
    else (d.coefficient, tenPow (-d.exponent).toNat)
  let x := num * den
  if v.mantissa % 2 = 0 then lo * scale ≤ x && x ≤ hi * scale
  else lo * scale < x && x < hi * scale

/-- The nearest decimal with `count` digits that reads back, if any. -/
def Dyadic.nearestOf (v : Dyadic) (count : Nat) : Option Digits :=
  let e := v.leading - count + 1
  let (num, den) := v.fraction
  let (num, den) := shift num den e
  let below : Digits := ⟨num / den, e⟩
  let above : Digits := ⟨num / den + 1, e⟩
  match v.readsBack below, v.readsBack above with
  | true, true => some (if roundDiv num den = num / den then below else above)
  | true, false => some below
  | false, true => some above
  | false, false => none

/-- The shortest decimal that reads back as the value, nearest among those of its length. -/
def Dyadic.shortest (v : Dyadic) : Digits :=
  let found := (List.range 17).findSome? fun k => v.nearestOf (k + 1)
  (found.getD (v.significant 17)).trim

end SmoothOpt.Decimal
