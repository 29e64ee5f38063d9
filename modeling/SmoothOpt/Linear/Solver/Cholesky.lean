import SmoothOpt.Linear.Solver.Tridiagonal

/-!
Positive definite systems in double precision by Cholesky factorization.
-/
namespace SmoothOpt.Linear

/-- Lower triangular factor of an `n × n` matrix stored by columns, of which only the lower
triangle is read; `none` as soon as a pivot is not positive. -/
def choleskyFactor (n : Nat) (a : FloatArray) : Option FloatArray := Id.run do
  let mut l := a
  for j in [0:n] do
    for k in [0:j] do
      l := addRange l (j * n + j) (-(l.get! (k * n + j))) l (k * n + j) (n - j)
    let pivot := l.get! (j * n + j)
    if !(pivot > 0.0) then
      return none
    let root := pivot.sqrt
    l := l.set! (j * n + j) root
    for i in [j + 1:n] do
      l := l.set! (j * n + i) (l.get! (j * n + i) / root)
  return some l

/-- Forward and backward substitution with a lower triangular factor stored by columns. -/
def substitute (n : Nat) (l b : FloatArray) : FloatArray := Id.run do
  let mut y := b
  for j in [0:n] do
    let e := y.get! j / l.get! (j * n + j)
    y := addRange (y.set! j e) (j + 1) (-e) l (j * n + j + 1) (n - j - 1)
  for r in [0:n] do
    let j := n - 1 - r
    let later := rangeDot l (j * n + j + 1) y (j + 1) (n - j - 1)
    y := y.set! j ((y.get! j - later) / l.get! (j * n + j))
  return y

/-- Solution of a positive definite system through its Cholesky factor. -/
def choleskySolve {n : Nat} (a : Dense Float n n) (b : Vector Float n) :
    Option (Vector Float n) := do
  let l ← choleskyFactor n (flatten a)
  let y := substitute n l (b.toList.foldl FloatArray.push FloatArray.empty)
  return Vector.ofFn fun i => y.get! i.val

end SmoothOpt.Linear
