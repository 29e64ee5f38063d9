import SmoothOpt.Scalar

/-!
Double precision as a scalar. Arithmetic, comparisons and the elementary functions are those of
the 64-bit binary format: comparisons with an undefined value fail and infinities are ordinary
values of the order.
-/
namespace SmoothOpt

instance : Scalar Float where
  zero := 0.0
  one := 1.0
  natCast := Float.ofNat
  intCast := Float.ofInt
  decLe := fun a b => Float.decLe a b
  decLt := fun a b => Float.decLt a b
  magnitude := Float.abs
  sqrt := Float.sqrt
  ln := Float.log
  pow := Float.pow
  isFinite := Float.isFinite
  infinity := 1.0 / 0.0
  natCeil := fun a => a.ceil.toUInt64.toNat

end SmoothOpt
