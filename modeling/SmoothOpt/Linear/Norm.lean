import SmoothOpt.Scalar

/-!
Norms and sums over the entries of a vector.

Two vectors are read side by side as far as both reach. The masked variants skip the entries
whose bound is absent: such entries hold zero slacks and multipliers and must not enter a norm or
a logarithm.
-/
namespace SmoothOpt.Linear

open Scalar

variable {α : Type} [Scalar α]

/-- Largest magnitude, zero for the empty vector; undefined entries are ignored. -/
def infNorm (v : List α) : α := v.foldl (fun acc x => maxNum acc (magnitude x)) 0

def oneNorm (v : List α) : α := sum (v.map magnitude)

def dot (v w : List α) : α := sum (List.zipWith (· * ·) v w)

/-- The entries whose flag is set, in order. -/
def masked {β : Type} (v : List β) (mask : List Bool) : List β :=
  ((v.zip mask).filter (·.2)).map (·.1)

def maskedOneNorm (v : List α) (mask : List Bool) : α := oneNorm (masked v mask)

def maskedLogSum (v : List α) (mask : List Bool) : α := sum ((masked v mask).map ln)

/-- Largest deviation of a flagged product `s z` from `mu`. -/
def maskedComplementarity (s z : List α) (mask : List Bool) (mu : α) : α :=
  (masked (s.zip z) mask).foldl (fun acc p => maxNum acc (magnitude (p.1 * p.2 - mu))) 0

def allFinite (v : List α) : Bool := v.all isFinite

end SmoothOpt.Linear
