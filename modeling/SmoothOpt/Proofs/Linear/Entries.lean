import Mathlib
import SmoothOpt.Linear.Dense
import SmoothOpt.Linear.Norm
import SmoothOpt.Proofs.Scalar.Exact

/-!
Vectors, matrices and norms entry by entry.

Vectors are read through `Vector.get`, and the list of their entries is an image of
`List.finRange`. A norm is then a bound on every entry, a masked norm a bound on the flagged ones,
and a sum is a sum over indices.
-/
namespace SmoothOpt.Linear

open Scalar

section Get

variable {β γ δ : Type} {m n : Nat}

abbrev noEntries : Vector β 0 := #v[]

/-- The vector of one entry. Its length is settled here, and not where it is written. -/
abbrev single (a : β) : Vector β 1 := #v[a]

@[simp] theorem get_zipWith (f : β → γ → δ) (v : Vector β n) (w : Vector γ n) (i : Fin n) :
    (Vector.zipWith f v w).get i = f (v.get i) (w.get i) := by
  simp only [Vector.get_eq_getElem, Vector.getElem_zipWith]

@[simp] theorem get_append_castAdd (v : Vector β m) (w : Vector β n) (i : Fin m) :
    (v ++ w).get (i.castAdd n) = v.get i := by
  simp only [Vector.get_eq_getElem, Fin.val_castAdd]
  rw [Vector.getElem_append_left i.isLt]

@[simp] theorem get_append_natAdd (v : Vector β m) (w : Vector β n) (j : Fin n) :
    (v ++ w).get (j.natAdd m) = w.get j := by
  simp only [Vector.get_eq_getElem, Fin.val_natAdd]
  rw [Vector.getElem_append_right (by omega) (by omega)]
  simp

@[simp] theorem get_firstPart (v : Vector β (m + n)) (i : Fin m) :
    (firstPart v).get i = v.get (i.castAdd n) := Vector.get_ofFn _ i

@[simp] theorem get_lastPart (v : Vector β (m + n)) (j : Fin n) :
    (lastPart v).get j = v.get (j.natAdd m) := Vector.get_ofFn _ j

@[simp] theorem get_spike {α : Type} [Scalar α] (i j : Fin n) (a : α) :
    (spike i a).get j = if j = i then a else 0 := Vector.get_ofFn _ j

theorem ext_get {v w : Vector β n} (same : ∀ i, v.get i = w.get i) : v = w := by
  ext i bound
  exact same ⟨i, bound⟩

theorem get_ofFn_eq (f : Fin n → β) : (Vector.ofFn f).get = f :=
  funext fun i => Vector.get_ofFn f i

theorem append_parts (v : Vector β (m + n)) : firstPart v ++ lastPart v = v := by
  refine ext_get fun i => ?_
  cases i using Fin.addCases with
  | left i => simp
  | right j => simp

theorem toList_eq_map_get (v : Vector β n) : v.toList = (List.finRange n).map v.get := by
  apply List.ext_getElem
  · simp
  · intro i _ _
    simp [Vector.get_eq_getElem]

theorem get_mem_toList (v : Vector β n) (i : Fin n) : v.get i ∈ v.toList := by
  rw [toList_eq_map_get]
  exact List.mem_map_of_mem (List.mem_finRange i)

theorem countP_toList (p : β → Bool) (v : Vector β n) :
    v.toList.countP p = Fintype.card { i // p (v.get i) = true } := by
  have listed : (Finset.univ.filter fun i => p (v.get i) = true) =
      ((List.finRange n).filter fun i => p (v.get i)).toFinset := by
    ext i
    simp
  have distinct := (List.nodup_finRange n).filter fun i => p (v.get i)
  rw [Fintype.card_subtype, listed, List.toFinset_card_of_nodup distinct, toList_eq_map_get,
    List.countP_map, List.countP_eq_length_filter]
  rfl

end Get

section Masked

variable {β γ : Type} {n : Nat}

/-- The flagged entries, by index. -/
theorem masked_map (f : Fin n → β) (flag : Fin n → Bool) :
    masked ((List.finRange n).map f) ((List.finRange n).map flag) =
      ((List.finRange n).filter flag).map f := by
  simp only [masked, List.zip_map', List.filter_map, List.map_map]
  rfl

/-- The flagged entries of a vector, with flags read off another one. -/
theorem masked_toList (v : Vector β n) (b : Vector γ n) (flag : γ → Bool) :
    masked v.toList (b.toList.map flag) =
      ((List.finRange n).filter fun i => flag (b.get i)).map v.get := by
  rw [toList_eq_map_get, toList_eq_map_get, List.map_map, masked_map]
  rfl

/-- The flagged pairs of entries of two vectors. -/
theorem masked_zip_toList {δ : Type} (v : Vector β n) (w : Vector δ n) (b : Vector γ n)
    (flag : γ → Bool) :
    masked (v.toList.zip w.toList) (b.toList.map flag) =
      ((List.finRange n).filter fun i => flag (b.get i)).map fun i => (v.get i, w.get i) := by
  rw [toList_eq_map_get v, toList_eq_map_get w, toList_eq_map_get b, List.zip_map', List.map_map,
    masked_map]
  rfl

end Masked

section Norms

/-- A running maximum is bounded when its start and every entry are. -/
theorem foldl_max_le_iff {β : Type} (f : β → ℝ) (bound : ℝ) (l : List β) (a : ℝ) :
    l.foldl (fun acc b => max acc (f b)) a ≤ bound ↔ a ≤ bound ∧ ∀ b ∈ l, f b ≤ bound := by
  induction l generalizing a with
  | nil => simp
  | cons b l ih =>
    rw [List.foldl_cons, ih, max_le_iff, List.forall_mem_cons, and_assoc]

theorem allFinite_toList_iff {α : Type} [Scalar α] {n : Nat} (v : Vector α n) :
    allFinite v.toList = true ↔ ∀ i, isFinite (v.get i) = true := by
  rw [allFinite, toList_eq_map_get, List.all_map, List.all_eq_true]
  simp

@[simp] theorem allFinite_real (v : List ℝ) : allFinite v = true := by
  simp [allFinite]

variable {γ : Type} {n : Nat}

theorem infNorm_le_iff (v : Vector ℝ n) (bound : ℝ) :
    infNorm v.toList ≤ bound ↔ 0 ≤ bound ∧ ∀ i, |v.get i| ≤ bound := by
  simp only [infNorm, maxNum_real, magnitude_real, foldl_max_le_iff, toList_eq_map_get]
  simp

theorem oneNorm_toList (v : Vector ℝ n) : oneNorm v.toList = ∑ i, |v.get i| := by
  rw [oneNorm, sum_real, toList_eq_map_get, List.map_map]
  exact (Fin.sum_univ_def _).symm

theorem sum_filter_finRange (f : Fin n → ℝ) (flag : Fin n → Bool) :
    (((List.finRange n).filter flag).map f).sum = ∑ i, if flag i then f i else 0 := by
  rw [Fin.sum_univ_def]
  induction List.finRange n with
  | nil => rfl
  | cons i l ih =>
    rw [List.map_cons, List.sum_cons, ← ih, List.filter_cons]
    split <;> simp

theorem maskedOneNorm_toList (v : Vector ℝ n) (b : Vector γ n) (flag : γ → Bool) :
    maskedOneNorm v.toList (b.toList.map flag) = ∑ i, if flag (b.get i) then |v.get i| else 0 := by
  rw [maskedOneNorm, oneNorm, sum_real, masked_toList, List.map_map]
  exact sum_filter_finRange _ _

theorem maskedLogSum_toList (v : Vector ℝ n) (b : Vector γ n) (flag : γ → Bool) :
    maskedLogSum v.toList (b.toList.map flag) =
      ∑ i, if flag (b.get i) then Real.log (v.get i) else 0 := by
  rw [maskedLogSum, sum_real, masked_toList, List.map_map]
  exact sum_filter_finRange _ _

theorem maskedComplementarity_le_iff (s z : Vector ℝ n) (b : Vector γ n) (flag : γ → Bool)
    (mu bound : ℝ) :
    maskedComplementarity s.toList z.toList (b.toList.map flag) mu ≤ bound ↔
      0 ≤ bound ∧ ∀ i, flag (b.get i) = true → |s.get i * z.get i - mu| ≤ bound := by
  simp only [maskedComplementarity, maxNum_real, magnitude_real, foldl_max_le_iff,
    masked_zip_toList]
  simp

end Norms

namespace Dense

variable {m n : Nat}

@[simp] theorem entry_ofFn {β : Type} (f : Fin m → Fin n → β) (i : Fin m) (j : Fin n) :
    (ofFn f).entry i j = f i j := by
  simp [entry, ofFn]

@[simp] theorem entry_transpose {β : Type} (a : Dense β m n) (i : Fin n) (j : Fin m) :
    a.transpose.entry i j = a.entry j i := entry_ofFn _ _ _

@[simp] theorem get_column {β : Type} (a : Dense β m n) (j : Fin n) (i : Fin m) :
    (a.column j).get i = a.entry i j := by
  simp only [column, Vector.get_map, entry]

@[simp] theorem entry_add (a b : Dense ℝ m n) (i : Fin m) (j : Fin n) :
    (a.add b).entry i j = a.entry i j + b.entry i j := by
  simp only [add, entry, get_zipWith]

@[simp] theorem entry_scale (a : Dense ℝ m n) (c : ℝ) (i : Fin m) (j : Fin n) :
    (a.scale c).entry i j = a.entry i j * c := by
  simp only [scale, map, entry, Vector.get_map]

theorem sum_toList (v : Vector ℝ n) : v.toList.sum = ∑ i, v.get i := by
  rw [toList_eq_map_get]
  exact (Fin.sum_univ_def _).symm

/-- The sum of the products along two joined pairs of vectors. -/
theorem foldl_products (v v' : Vector ℝ m) (w w' : Vector ℝ n) :
    (List.zipWith (· * ·) (v.toList ++ w.toList) (v'.toList ++ w'.toList)).foldl (· + ·) 0 =
      ∑ i, v.get i * v'.get i + ∑ j, w.get j * w'.get j := by
  rw [List.zipWith_append (by simp), ← Vector.toList_zipWith, ← Vector.toList_zipWith,
    ← List.sum_eq_foldl, List.sum_append, sum_toList, sum_toList]
  simp only [get_zipWith]

theorem inner_eq_sum (v w : Vector ℝ n) : inner v w = ∑ i, v.get i * w.get i := by
  rw [inner, sum_real, sum_toList]
  simp only [get_zipWith]

@[simp] theorem entry_mul {k : Nat} (a : Dense ℝ m k) (b : Dense ℝ k n) (i : Fin m) (j : Fin n) :
    (a.mul b).entry i j = ∑ r, a.entry i r * b.entry r j := by
  simp only [mul, entry, Vector.get_map, inner_eq_sum]
  refine Finset.sum_congr rfl fun r _ => congrArg _ ?_
  exact entry_transpose b j r

@[simp] theorem get_mulVec (a : Dense ℝ m n) (v : Vector ℝ n) (i : Fin m) :
    (a.mulVec v).get i = ∑ j, a.entry i j * v.get j := by
  rw [mulVec, Vector.get_map, inner_eq_sum]
  rfl

/-- One row after another, every entry gathers the products with the multipliers. -/
theorem get_foldl_rows (l : List (Vector ℝ n × ℝ)) (v : Vector ℝ n) (j : Fin n) :
    (l.foldl (fun acc (row, c) =>
        if equals c 0 then acc else Vector.zipWith (fun o e => o + e * c) acc row) v).get j =
      v.get j + (l.map fun p => p.1.get j * p.2).sum := by
  induction l generalizing v with
  | nil => simp
  | cons p l ih =>
    rw [List.foldl_cons, ih, List.map_cons, List.sum_cons, ← add_assoc]
    congr 1
    by_cases zero : p.2 = 0
    · simp [zero]
    · simp [zero]

@[simp] theorem get_addTransposeProduct (a : Dense ℝ m n) (y : Vector ℝ m) (v : Vector ℝ n)
    (j : Fin n) : (a.addTransposeProduct y v).get j = v.get j + ∑ r, a.entry r j * y.get r := by
  rw [addTransposeProduct, ← Vector.foldl_toList, get_foldl_rows, Vector.toList_zip,
    toList_eq_map_get a, toList_eq_map_get y, List.zip_map', List.map_map, Fin.sum_univ_def]
  rfl

end Dense

end SmoothOpt.Linear
