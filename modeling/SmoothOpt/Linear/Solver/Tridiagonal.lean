import SmoothOpt.Linear.Solver
import SmoothOpt.Scalar.Double

/-!
The symmetric eigenproblem in double precision.

The matrix is scaled by its largest entry, reduced to tridiagonal form by Householder reflections,
and diagonalized by implicit QR sweeps with Wilkinson's shift. Only its lower triangle is read.
Matrices are flat arrays of unboxed numbers, one column after the other.
-/
namespace SmoothOpt.Linear

/-- Columns one after the other. -/
def flatten {m n : Nat} (a : Dense Float m n) : FloatArray :=
  a.transpose.entries.foldl FloatArray.push FloatArray.empty

def zeroArray (n : Nat) : FloatArray := n.fold (fun _ _ a => a.push 0.0) FloatArray.empty

/-- Sum of every eighth product, `blocks` of them. -/
def laneDot (a : FloatArray) (i : Nat) (b : FloatArray) (j blocks : Nat) : Float := Id.run do
  let mut total := 0.0
  for t in [0:blocks] do
    total := total + a.get! (i + 8 * t) * b.get! (j + 8 * t)
  return total

/-- Inner product of the `len` entries of `a` from `i` on with those of `b` from `j` on. Eight sums
run side by side while eight terms are left; the remaining terms follow one by one. -/
def rangeDot (a : FloatArray) (i : Nat) (b : FloatArray) (j len : Nat) : Float := Id.run do
  let blocks := len / 8
  let lane (k : Nat) : Float := laneDot a (i + k) b (j + k) blocks
  let mut total := 0.0
  if 0 < blocks then
    for k in [0:4] do
      total := total + (lane k + lane (k + 4))
  for k in [8 * blocks:len] do
    total := total + a.get! (i + k) * b.get! (j + k)
  return total

/-- Add `c` times the `len` entries of `x` from `j` on to those of `y` from `i` on. -/
def addRange (y : FloatArray) (i : Nat) (c : Float) (x : FloatArray) (j len : Nat) : FloatArray :=
  len.fold (fun k _ y => y.set! (i + k) (c * x.get! (j + k) + y.get! (i + k))) y

def divideBy (v : FloatArray) (c : Float) : FloatArray :=
  v.size.fold (fun k _ v => v.set! k (v.get! k / c)) v

/-- The unit normal of the reflection that sends `v` to a multiple of the first unit vector, and
that multiple. A vector without length has none. -/
def reflectionAxis (v : FloatArray) : FloatArray × Float × Bool :=
  let squares := rangeDot v 0 v 0 v.size
  let norm := squares.sqrt
  let x := v.get! 0
  let signed := if x ≥ 0.0 then norm else -norm
  let scale := (squares + x.abs * norm) * 2.0
  let v := v.set! 0 (x + signed)
  if scale == 0.0 then (v, signed, false)
  else
    let v := divideBy v scale.sqrt
    (divideBy v (rangeDot v 0 v 0 v.size).sqrt, -signed, true)

/-- Twice the product of the block of an `n × n` matrix after row and column `i` with `u`. -/
def doubledProduct (n i : Nat) (a u : FloatArray) : FloatArray := Id.run do
  let len := u.size
  let first := (i + 1) * n + (i + 1)
  let mut p := addRange (zeroArray len) 0 (2.0 * u.get! 0) a first len
  p := p.set! 0 (p.get! 0 + 2.0 * rangeDot a (first + 1) u 1 (len - 1))
  for j in [1:len] do
    let pivot := first + j * n + j
    p := p.set! j (p.get! j + 2.0 * rangeDot a pivot u j (len - j))
    p := addRange p (j + 1) (2.0 * u.get! j) a (pivot + 1) (len - j - 1)
  return p

/-- Reflect the block after row and column `i` from both sides at the plane with unit normal `u`. -/
def reflectBlock (n i : Nat) (a u : FloatArray) : FloatArray := Id.run do
  let p := doubledProduct n i a u
  let both := rangeDot u 0 p 0 u.size * 2.0
  let mut a := a
  for j in [0:u.size] do
    let pivot := (i + 1 + j) * n + (i + 1 + j)
    let len := u.size - j
    a := addRange a pivot (-(u.get! j)) p j len
    a := addRange a pivot (-(p.get! j)) u j len
    a := addRange a pivot (both * u.get! j) u j len
  return a

/-- A tridiagonal matrix with the orthonormal vectors, one after the other, in which it represents
the matrix it came from. -/
structure Tridiagonal where
  diag : FloatArray
  off : FloatArray
  basis : FloatArray

/-- Apply the reflection with the given normal, times `sign`, to the entries after row `i` of every
vector from the `i`-th on. -/
def reflectBasis (n i : Nat) (basis u : FloatArray) (sign : Float) : FloatArray := Id.run do
  let mut basis := basis
  for c in [i:n] do
    let first := c * n + (i + 1)
    let factor := rangeDot u 0 basis first u.size * (sign * -2.0)
    for k in [0:u.size] do
      basis := basis.set! (first + k) (factor * u.get! k + sign * basis.get! (first + k))
  return basis

/-- Householder reduction of a symmetric matrix. -/
def tridiagonalize (n : Nat) (matrix : FloatArray) : Tridiagonal := Id.run do
  let mut a := matrix
  let mut axes : Array (FloatArray × Float) := #[]
  let mut off := FloatArray.empty
  for i in [0:n - 1] do
    let below := i * n + i + 1
    let column := (n - 1 - i).fold (fun k _ v => v.push (a.get! (below + k))) FloatArray.empty
    let (u, image, reflected) := reflectionAxis column
    if reflected then
      a := reflectBlock n i a u
    axes := axes.push (u, if image.toBits >>> 63 == 1 then -1.0 else 1.0)
    off := off.push image.abs
  let mut basis := flatten (Dense.identity : Dense Float n n)
  for r in [0:n - 1] do
    let i := n - 2 - r
    if let some (u, sign) := axes[i]? then
      basis := reflectBasis n i basis u sign
  let diag := n.fold (fun i _ v => v.push (a.get! (i * n + i))) FloatArray.empty
  return ⟨diag, off, basis⟩

namespace Tridiagonal

/-- Relative size below which an entry beside the diagonal counts as zero. -/
def negligible : Float := 2.220446049250313e-16

/-- The bound below which entry `m` beside the diagonal counts as zero. -/
def threshold (t : Tridiagonal) (m : Nat) : Float :=
  negligible * ((t.diag.get! m).abs + (t.diag.get! (m + 1)).abs)

/-- The last row at or above the given one that is coupled to the row before it; row zero if there
is none. -/
def coupledEnd (t : Tridiagonal) : Nat → Nat
  | 0 => 0
  | m + 1 => if (t.off.get! m).abs > t.threshold m then m + 1 else t.coupledEnd m

/-- The first row of the coupled block that contains the given one. -/
def coupledStart (t : Tridiagonal) : Nat → Nat
  | 0 => 0
  | m + 1 => if (t.off.get! m).abs ≤ t.threshold m then m + 1 else t.coupledStart m

def cutBefore (t : Tridiagonal) : Nat → Tridiagonal
  | 0 => t
  | m + 1 => { t with off := t.off.set! m 0.0 }

def turnBasis (n i : Nat) (basis : FloatArray) (c s : Float) : FloatArray := Id.run do
  let mut basis := basis
  for r in [i * n:i * n + n] do
    let x := basis.get! r
    let y := basis.get! (r + n)
    basis := (basis.set! r (x * c + s * y)).set! (r + n) (-s * x + y * c)
  return basis

/-- Wilkinson's shift: the eigenvalue of the trailing block closer to its last entry. -/
def wilkinsonShift (tmm tnn tmn : Float) : Float :=
  let square := tmn * tmn
  if square == 0.0 then tnn
  else
    let d := (tmm - tnn) * 0.5
    let root := (d * d + square).sqrt
    tnn - square / (d + (if d.toBits >>> 63 == 1 then -root else root))

/-- One QR sweep over the rows from `start` to `last`: an unwanted entry is chased down the matrix
by rotations. -/
def sweep (n : Nat) (t : Tridiagonal) (start last : Nat) : Tridiagonal := Id.run do
  let mut diag := t.diag
  let mut off := t.off
  let mut basis := t.basis
  let shift := wilkinsonShift (diag.get! (last - 1)) (diag.get! last) (off.get! (last - 1))
  let mut x := diag.get! start - shift
  let mut y := off.get! start
  for i in [start:last] do
    if y == 0.0 then
      break
    let length := (x.abs * x.abs + y * y).sqrt
    let signed := if x ≥ 0.0 then length else -length
    let c := x.abs / length
    let s := -y / signed
    if start < i then
      off := off.set! (i - 1) signed
    let mii := diag.get! i
    let mjj := diag.get! (i + 1)
    let mij := off.get! i
    let cc := c * c
    let ss := s * s
    let cs := c * s
    let b := cs * 2.0 * mij
    diag := diag.set! i ((cc * mii + ss * mjj) - b)
    diag := diag.set! (i + 1) ((ss * mii + cc * mjj) + b)
    off := off.set! i (cs * (mii - mjj) + mij * (cc - ss))
    if i + 1 < last then
      x := off.get! i
      y := -s * off.get! (i + 1)
      off := off.set! (i + 1) (off.get! (i + 1) * c)
    basis := turnBasis n i basis c (-s)
  return ⟨diag, off, basis⟩

/-- Diagonalize the block of rows `i` and `i + 1` in closed form. -/
def splitPair (n : Nat) (t : Tridiagonal) (i : Nat) : Tridiagonal :=
  let a := t.diag.get! i
  let d := t.diag.get! (i + 1)
  let b := t.off.get! i
  let half := (a - d) * 0.5
  let root := (b * b + half * half).sqrt
  let centre := (a + d) * 0.5
  let x := centre + root - d
  let length := (x.abs * x.abs + b * b).sqrt
  let basis :=
    if length > negligible then
      turnBasis n i t.basis (x.abs / length) (b / (if x ≥ 0.0 then length else -length))
    else t.basis
  { t with diag := (t.diag.set! i (centre + root)).set! (i + 1) (centre - root), basis }

/-- Diagonalize the rows up to `last`, at most `budget` blocks or sweeps. Convergence is cubic, so
a few sweeps for each row suffice. -/
def diagonalize (n : Nat) : Nat → Tridiagonal → Nat → Tridiagonal
  | 0, t, _ => t
  | budget + 1, t, last =>
    let last := t.coupledEnd last
    if last = 0 then t
    else
      let start := t.coupledStart (last - 1)
      let t := t.cutBefore start
      if start + 1 = last then diagonalize n budget (t.splitPair n start) start
      else
        let t := t.sweep n start last
        let settled := (t.off.get! (last - 1)).abs ≤ t.threshold (last - 1)
        diagonalize n budget t (if settled then last - 1 else last)

end Tridiagonal

def qrEigen {n : Nat} (k : Dense Float n n) : SymEigen Float n :=
  let a := flatten k
  let largest := a.foldl (fun acc e => Scalar.maxNum acc e.abs) 0.0
  let scaled := if largest == 0.0 then a else divideBy a largest
  let t := (tridiagonalize n scaled).diagonalize n (1000 + 100 * n) (n - 1)
  { values := Vector.ofFn fun i => t.diag.get! i.val * largest
    vectors := Dense.ofFn fun i j => t.basis.get! (i.val * n + j.val) }

end SmoothOpt.Linear
