import Mathlib
import SmoothOpt.Proofs.Linear.Entries
import SmoothOpt.Proofs.Linear.Spectral
import SmoothOpt.Proofs.Scalar.Extended

/-!
Vectors of real numbers among those of extended ones.

Sums, norms and products of real vectors are the same in both scalars, so that what is known of
exact arithmetic carries over as long as all numbers are finite. The only operation that can leave
the real numbers is a quotient.
-/
namespace SmoothOpt

open Scalar

namespace Extended

def toReal : Extended → ℝ
  | finite r => r
  | infinite _ | undefined => 0

@[simp] theorem toReal_finite (r : ℝ) : (finite r).toReal = r := rfl

theorem finite_toReal {a : Extended} (h : isFinite a = true) : finite a.toReal = a := by
  obtain ⟨r, rfl⟩ := exists_of_isFinite h
  rfl

end Extended

namespace Linear

open Extended (finite)

variable {m n : Nat}

def lift (v : Vector ℝ n) : Vector Extended n := v.map finite

@[simp] theorem get_lift (v : Vector ℝ n) (i : Fin n) : (lift v).get i = finite (v.get i) :=
  Vector.get_map _ _ _

theorem toList_lift (v : Vector ℝ n) : (lift v).toList = v.toList.map finite := Vector.toList_map

/-- A finite vector is a real one. -/
theorem exists_lift {v : Vector Extended n} (h : allFinite v.toList = true) : ∃ u, v = lift u := by
  refine ⟨v.map Extended.toReal, ext_get fun i => ?_⟩
  rw [get_lift, Vector.get_map, Extended.finite_toReal ((allFinite_toList_iff v).mp h i)]

theorem lift_replicate (r : ℝ) : lift (Vector.replicate n r) = Vector.replicate n (finite r) :=
  Vector.map_replicate

theorem lift_firstPart (v : Vector ℝ (m + n)) : firstPart (lift v) = lift (firstPart v) := by
  apply ext_get
  simp

theorem lift_lastPart (v : Vector ℝ (m + n)) : lastPart (lift v) = lift (lastPart v) := by
  apply ext_get
  simp

section Norms

/-- A running maximum of real numbers. -/
theorem foldl_max_lift {β : Type} (f : β → ℝ) (l : List β) (a : ℝ) :
    l.foldl (fun acc b => maxNum acc (finite (f b))) (finite a) =
      finite (l.foldl (fun acc b => maxNum acc (f b)) a) := by
  induction l generalizing a with
  | nil => rfl
  | cons b l ih => rw [List.foldl_cons, List.foldl_cons, Extended.maxNum_finite, ih, maxNum_real]

theorem infNorm_lift (v : Vector ℝ n) : infNorm (lift v).toList = finite (infNorm v.toList) := by
  rw [infNorm, toList_lift, List.foldl_map]
  exact foldl_max_lift magnitude v.toList 0

theorem masked_lift {β γ : Type} (f : β → γ) (l : List β) (mask : List Bool) :
    masked (l.map f) mask = (masked l mask).map f := by
  simp only [masked, List.zip_map_left, List.filter_map, List.map_map]
  rfl

/-- The flagged pairs of entries of two real vectors. -/
theorem masked_zip_lift (v w : Vector ℝ n) (mask : List Bool) :
    masked ((lift v).toList.zip (lift w).toList) mask =
      (masked (v.toList.zip w.toList) mask).map (Prod.map finite finite) := by
  rw [toList_lift, toList_lift, List.zip_map, masked_lift]

theorem maskedComplementarity_lift (s z : Vector ℝ n) (mask : List Bool) (mu : ℝ) :
    maskedComplementarity (lift s).toList (lift z).toList mask (finite mu) =
      finite (maskedComplementarity s.toList z.toList mask mu) := by
  rw [maskedComplementarity, masked_zip_lift, List.foldl_map]
  simp only [Prod.map, Extended.finite_mul, Extended.finite_sub, Extended.magnitude_finite]
  exact foldl_max_lift (fun p : ℝ × ℝ => magnitude (p.1 * p.2 - mu)) _ 0

end Norms

namespace Dense

def lift (a : Dense ℝ m n) : Dense Extended m n := Vector.map Linear.lift a

/-- A finite matrix is a real one. -/
theorem exists_lift {a : Dense Extended m n} (h : allFinite a.entries = true) :
    ∃ u : Dense ℝ m n, a = u.lift := by
  refine ⟨Vector.map (Vector.map Extended.toReal) a, ext_get fun i => ?_⟩
  have row : allFinite (a.get i).toList = true := by
    rw [allFinite, entries, List.all_flatMap, List.all_eq_true] at h
    exact h _ (by simp [toList_eq_map_get])
  rw [lift, Vector.get_map, Vector.get_map]
  apply ext_get
  intro j
  rw [get_lift, Vector.get_map, Extended.finite_toReal ((allFinite_toList_iff _).mp row j)]

/-- One row after another, real rows with real multipliers. -/
theorem foldl_rows_lift (l : List (Vector ℝ n × ℝ)) (v : Vector ℝ n) :
    l.foldl (fun acc p => if equals (finite p.2) 0 then acc
        else Vector.zipWith (fun o e => o + e * finite p.2) acc (Linear.lift p.1)) (Linear.lift v) =
      Linear.lift (l.foldl (fun acc p => if equals p.2 0 then acc
        else Vector.zipWith (fun o e => o + e * p.2) acc p.1) v) := by
  induction l generalizing v with
  | nil => rfl
  | cons p l ih =>
    have added : Vector.zipWith (fun o e => o + e * finite p.2) (Linear.lift v) (Linear.lift p.1) =
        Linear.lift (Vector.zipWith (fun o e => o + e * p.2) v p.1) := by
      apply ext_get
      simp
    rw [List.foldl_cons, List.foldl_cons, ← ih, Extended.zero_eq, Extended.equals_finite]
    split
    · rfl
    · rw [added]

theorem addTransposeProduct_lift (a : Dense ℝ m n) (y : Vector ℝ m) (v : Vector ℝ n) :
    a.lift.addTransposeProduct (Linear.lift y) (Linear.lift v) =
      Linear.lift (a.addTransposeProduct y v) := by
  have rows : a.lift.toList = a.toList.map Linear.lift := Vector.toList_map
  rw [addTransposeProduct, addTransposeProduct, ← Vector.foldl_toList, ← Vector.foldl_toList,
    Vector.toList_zip, Vector.toList_zip, rows, toList_lift, List.zip_map, List.foldl_map]
  exact foldl_rows_lift _ v

end Dense

namespace Exact

/-- The exact factorizations of real matrices. Entries that are not finite count as zero. -/
noncomputable scoped instance liftedSolver : DenseSolver Extended where
  eigen a :=
    let e := exactSolver.eigen (Vector.map (Vector.map Extended.toReal) a)
    ⟨lift e.values, e.vectors.lift⟩
  solvePositive a b :=
    (exactSolver.solvePositive (Vector.map (Vector.map Extended.toReal) a)
      (b.map Extended.toReal)).map lift

end Exact

end Linear

end SmoothOpt
