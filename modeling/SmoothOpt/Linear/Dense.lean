import SmoothOpt.Scalar

/-!
Dense matrices of fixed shape, stored by rows.

The type carries both sizes, so a product of mismatched shapes cannot be written. Sums run along
the rows from left to right.
-/
namespace SmoothOpt.Linear

open Scalar

def firstPart {α : Type} {m n : Nat} (v : Vector α (m + n)) : Vector α m :=
  Vector.ofFn fun i => v.get (i.castAdd n)

def lastPart {α : Type} {m n : Nat} (v : Vector α (m + n)) : Vector α n :=
  Vector.ofFn fun i => v.get (i.natAdd m)

/-- The vector that is `v` at position `i` and zero elsewhere. -/
def spike {α : Type} [Scalar α] {n : Nat} (i : Fin n) (v : α) : Vector α n :=
  Vector.ofFn fun j => if j = i then v else 0

/-- A matrix with `m` rows of `n` entries. -/
abbrev Dense (α : Type) (m n : Nat) := Vector (Vector α n) m

namespace Dense

variable {α : Type} {m n k : Nat}

def ofFn (f : Fin m → Fin n → α) : Dense α m n := Vector.ofFn fun i => Vector.ofFn (f i)

def entry (a : Dense α m n) (i : Fin m) (j : Fin n) : α := (a.get i).get j

def transpose (a : Dense α m n) : Dense α n m := ofFn fun j i => a.entry i j

def column (a : Dense α m n) (j : Fin n) : Vector α m := Vector.map (·.get j) a

/-- Every entry, row by row. -/
def entries (a : Dense α m n) : List α := a.toList.flatMap (·.toList)

def map (f : α → α) (a : Dense α m n) : Dense α m n := Vector.map (Vector.map f) a

variable [Scalar α]

def zeros : Dense α m n := Vector.replicate m (Vector.replicate n 0)

def diagonal (v : Vector α n) : Dense α n n := ofFn fun i j => if i = j then v.get i else 0

def identity : Dense α n n := diagonal (Vector.replicate n 1)

def add (a b : Dense α m n) : Dense α m n := Vector.zipWith (Vector.zipWith (· + ·)) a b

def sub (a b : Dense α m n) : Dense α m n := Vector.zipWith (Vector.zipWith (· - ·)) a b

def scale (a : Dense α m n) (c : α) : Dense α m n := a.map (· * c)

/-- Sum of the products of corresponding entries of two vectors of one length. -/
def inner (v w : Vector α n) : α := sum (Vector.zipWith (· * ·) v w).toList

def mulVec (a : Dense α m n) (v : Vector α n) : Vector α m := Vector.map (inner · v) a

def mul (a : Dense α m k) (b : Dense α k n) : Dense α m n :=
  let columns := b.transpose
  Vector.map (fun row => Vector.map (inner row) columns) a

def outer (v : Vector α m) (w : Vector α n) : Dense α m n :=
  Vector.map (fun x => Vector.map (x * ·) w) v

/-- `v + aᵀ y`, row after row; a row whose multiplier is zero is skipped. -/
def addTransposeProduct (a : Dense α m n) (y : Vector α m) (v : Vector α n) : Vector α n :=
  (a.zip y).foldl (fun acc (row, c) =>
    if equals c 0 then acc else Vector.zipWith (fun o e => o + e * c) acc row) v

end Dense

end SmoothOpt.Linear
