import Mathlib
import SmoothOpt.Barrier.Curvature
import SmoothOpt.Proofs.Linear.Spectral

/-!
The quasi-Newton matrix in exact arithmetic.

An update with the damped change `r` of a positive definite matrix `B` along `s` replaces the part
of `B` along `s`: what is left of the quadratic form of `x` is the form of `x` with its component
along `s` taken out, and the new part is positive exactly where that vanishes. So the matrix stays
positive definite whatever the pairs are, and it maps the last `s` to its `r`.
-/
namespace SmoothOpt

open Scalar Linear Matrix

variable {n : Nat}

namespace Linear.Dense

theorem inner_eq_dotProduct (v w : Vector ℝ n) : inner v w = v.get ⬝ᵥ w.get := inner_eq_sum v w

theorem inner_blend {s r v w : Vector ℝ n} {a b : ℝ}
    (blend : ∀ i, r.get i = a * v.get i + b * w.get i) :
    inner s r = a * inner s v + b * inner s w := by
  simp only [inner_eq_sum, blend, Finset.mul_sum, ← Finset.sum_add_distrib]
  exact Finset.sum_congr rfl fun i _ => by ring

theorem toMatrix_identity : (identity : Dense ℝ n n).toMatrix = 1 := by
  ext i j
  simp [identity, diagonal, Matrix.one_apply]

theorem toMatrix_scale (a : Dense ℝ n n) (c : ℝ) : (a.scale c).toMatrix = c • a.toMatrix := by
  ext i j
  simp [mul_comm]

/-- A rank-two change of a matrix. -/
theorem toMatrix_rankTwo (a : Dense ℝ n n) (r b : Vector ℝ n) (sr sb : ℝ) :
    (a.add (((outer r r).map (· / sr)).sub ((outer b b).map (· / sb)))).toMatrix =
      a.toMatrix + (sr⁻¹ • vecMulVec r.get r.get - sb⁻¹ • vecMulVec b.get b.get) := by
  ext i j
  simp only [toMatrix_apply, entry_add, Matrix.add_apply, Matrix.sub_apply, Matrix.smul_apply,
    vecMulVec_apply, smul_eq_mul]
  simp only [entry, sub, map, outer, get_zipWith, Vector.get_map]
  ring

end Linear.Dense

section Update

variable {B : Matrix (Fin n) (Fin n) ℝ} {s r : Fin n → ℝ}

/-- The quadratic form with the part along `s` taken out. -/
theorem form_sub_part (symmetric : B.IsSymm) (s x : Fin n → ℝ) (nonzero : s ⬝ᵥ B *ᵥ s ≠ 0) :
    x ⬝ᵥ B *ᵥ x - (x ⬝ᵥ B *ᵥ s) ^ 2 / (s ⬝ᵥ B *ᵥ s) =
      (x - (x ⬝ᵥ B *ᵥ s / (s ⬝ᵥ B *ᵥ s)) • s) ⬝ᵥ
        B *ᵥ (x - (x ⬝ᵥ B *ᵥ s / (s ⬝ᵥ B *ᵥ s)) • s) := by
  have swapped : s ⬝ᵥ B *ᵥ x = x ⬝ᵥ B *ᵥ s := by
    rw [dotProduct_mulVec, ← mulVec_transpose, symmetric.eq, dotProduct_comm]
  simp only [mulVec_sub, mulVec_smul, sub_dotProduct, dotProduct_sub, smul_dotProduct,
    dotProduct_smul, smul_eq_mul, swapped]
  field_simp
  ring

/-- The matrix after an update along `s` with the change `r`. -/
noncomputable def rankTwo (B : Matrix (Fin n) (Fin n) ℝ) (s r : Fin n → ℝ) :
    Matrix (Fin n) (Fin n) ℝ :=
  B + ((s ⬝ᵥ r)⁻¹ • vecMulVec r r - (s ⬝ᵥ B *ᵥ s)⁻¹ • vecMulVec (B *ᵥ s) (B *ᵥ s))

theorem rankTwo_mulVec (B : Matrix (Fin n) (Fin n) ℝ) (s r x : Fin n → ℝ) :
    rankTwo B s r *ᵥ x = B *ᵥ x + ((x ⬝ᵥ r / (s ⬝ᵥ r)) • r -
      (x ⬝ᵥ B *ᵥ s / (s ⬝ᵥ B *ᵥ s)) • B *ᵥ s) := by
  have part (c : ℝ) (v : Fin n → ℝ) : (c⁻¹ • vecMulVec v v) *ᵥ x = (x ⬝ᵥ v / c) • v := by
    rw [smul_mulVec, vecMulVec_mulVec, op_smul_eq_smul, smul_smul, dotProduct_comm v, div_eq_inv_mul]
  rw [rankTwo, add_mulVec, sub_mulVec, part, part]

/-- An update with curvature maps `s` to `r`. -/
theorem rankTwo_mulVec_self (sr : s ⬝ᵥ r ≠ 0) (sbs : s ⬝ᵥ B *ᵥ s ≠ 0) :
    rankTwo B s r *ᵥ s = r := by
  rw [rankTwo_mulVec, div_self sr, div_self sbs, one_smul, one_smul, add_sub_cancel]

theorem form_rankTwo (B : Matrix (Fin n) (Fin n) ℝ) (s r x : Fin n → ℝ) :
    x ⬝ᵥ rankTwo B s r *ᵥ x = x ⬝ᵥ B *ᵥ x - (x ⬝ᵥ B *ᵥ s) ^ 2 / (s ⬝ᵥ B *ᵥ s) +
      (x ⬝ᵥ r) ^ 2 / (s ⬝ᵥ r) := by
  rw [rankTwo_mulVec, dotProduct_add, dotProduct_sub, dotProduct_smul, dotProduct_smul,
    smul_eq_mul, smul_eq_mul]
  ring

theorem rankTwo_isSymm (symmetric : B.IsSymm) : (rankTwo B s r).IsSymm := by
  have part (c : ℝ) (v : Fin n → ℝ) : (c • vecMulVec v v).IsSymm := by
    rw [IsSymm, transpose_smul, transpose_vecMulVec]
  exact symmetric.add ((part _ _).sub (part _ _))

/-- An update with positive curvature keeps a matrix positive definite. -/
theorem rankTwo_posDef (definite : B.PosDef) (sr : 0 < s ⬝ᵥ r) (sbs : 0 < s ⬝ᵥ B *ᵥ s) :
    (rankTwo B s r).PosDef := by
  have symmetric : B.IsSymm := by
    simpa using definite.isHermitian
  refine .of_dotProduct_mulVec_pos ?_ fun x nonzero => ?_
  · simpa using rankTwo_isSymm symmetric
  rw [star_trivial, form_rankTwo, form_sub_part symmetric s x sbs.ne']
  set t := x ⬝ᵥ B *ᵥ s / (s ⬝ᵥ B *ᵥ s)
  -- what is left of the old form vanishes only along `s`, and there the new part does not
  by_cases along : x - t • s = 0
  · have multiple : x = t • s := sub_eq_zero.mp along
    have factor : t ≠ 0 := by
      rintro zero
      rw [zero, zero_smul] at multiple
      exact nonzero multiple
    have curved : x ⬝ᵥ r = t * (s ⬝ᵥ r) := by
      rw [← smul_eq_mul, ← smul_dotProduct, ← multiple]
    rw [along, zero_dotProduct, zero_add, curved]
    positivity
  · have left := definite.dotProduct_mulVec_pos along
    rw [star_trivial] at left
    have added : 0 ≤ (x ⬝ᵥ r) ^ 2 / (s ⬝ᵥ r) := by positivity
    linarith

end Update

namespace QuasiNewton

variable {q : QuasiNewton ℝ n} {s y : Vector ℝ n}

def Definite (q : QuasiNewton ℝ n) : Prop := q.matrix.Symmetric ∧ q.matrix.toMatrix.PosDef

theorem definite_iff : q.Definite ↔ q.matrix.toMatrix.PosDef := by
  constructor
  · exact And.right
  · intro definite
    refine ⟨fun i j => ?_, definite⟩
    have same := congrFun (congrFun definite.isHermitian.eq j) i
    simpa using same

theorem definite_initial : (initial : QuasiNewton ℝ n).Definite := by
  rw [definite_iff, initial, Dense.toMatrix_identity]
  exact .one

/-- The first pair of positive curvature rescales the matrix, and no other does. -/
theorem rescaled_cases (q : QuasiNewton ℝ n) (s y : Vector ℝ n) :
    (q.scaled = true ∨ Dense.inner s y ≤ 1e-12) ∧ q.rescaled s y = q ∨
      (q.scaled = false ∧ 1e-12 < Dense.inner s y) ∧ q.rescaled s y =
        { q with matrix := Dense.identity.scale (Dense.inner y y / Dense.inner s y), scaled := true } := by
  unfold rescaled
  dsimp only
  split
  · rename_i fresh
    rw [Bool.and_eq_true, Bool.not_eq_true', decide_eq_true_iff] at fresh
    exact .inr ⟨fresh, rfl⟩
  · rename_i used
    rw [Bool.and_eq_true, Bool.not_eq_true', decide_eq_true_iff, not_and_or, Bool.not_eq_false,
      not_lt] at used
    exact .inl ⟨used, rfl⟩

theorem pos_of_curved {t : ℝ} (curved : 1e-12 < t) : 0 < t := lt_trans (by norm_num) curved

/-- A pair of positive curvature has a change that is not zero, so that the rescaled unit matrix is
definite. -/
theorem Definite.rescaled (definite : q.Definite) (s y : Vector ℝ n) :
    (q.rescaled s y).Definite := by
  obtain ⟨-, same⟩ | ⟨⟨-, curved⟩, scaled⟩ := q.rescaled_cases s y
  · rw [same]
    exact definite
  · have positive := pos_of_curved curved
    have change : 0 < Dense.inner y y := by
      rw [Dense.inner_eq_dotProduct] at positive ⊢
      have nonzero : y.get ≠ 0 := by
        intro zero
        rw [zero, dotProduct_zero] at positive
        exact lt_irrefl 0 positive
      simpa using dotProduct_self_star_pos_iff.mpr nonzero
    rw [definite_iff, scaled, Dense.toMatrix_scale, Dense.toMatrix_identity]
    exact PosDef.one.smul (div_pos change positive)

/-- The change is taken as it is if it has the curvature that is asked for, and otherwise blended
with `B s` until it has just that. -/
theorem dampedChange_cases {bs : Vector ℝ n} (nonneg : 0 ≤ Dense.inner s bs) (y : Vector ℝ n) :
    let r := dampedChange y bs (Dense.inner s y) (Dense.inner s bs)
    let theta := (1 - 0.2) * Dense.inner s bs / (Dense.inner s bs - Dense.inner s y)
    0.2 * Dense.inner s bs ≤ Dense.inner s y ∧ r = y ∨
      Dense.inner s y < 0.2 * Dense.inner s bs ∧ Dense.inner s r = 0.2 * Dense.inner s bs ∧
        ∀ i, r.get i = theta * y.get i + (1 - theta) * bs.get i := by
  have entry (theta : ℝ) (i : Fin n) :
      (Vector.zipWith (fun yi bi => yi * theta + bi * (1 - theta)) y bs).get i =
        theta * y.get i + (1 - theta) * bs.get i := by
    rw [get_zipWith]
    ring
  dsimp only
  by_cases enough : 0.2 * Dense.inner s bs ≤ Dense.inner s y
  · left
    rw [dampedChange, damping, if_pos enough]
    refine ⟨enough, ext_get fun i => ?_⟩
    rw [entry]
    ring
  · right
    rw [dampedChange, damping, if_neg enough]
    have apart : Dense.inner s bs - Dense.inner s y ≠ 0 := by
      rw [not_le] at enough
      norm_num at enough
      linarith
    refine ⟨not_le.mp enough, ?_, entry _⟩
    rw [Dense.inner_blend (entry _)]
    field_simp
    ring

/-- A pair is skipped for lack of curvature, before or after damping, and otherwise changes the
matrix by a rank-two update. -/
theorem update_cases (q : QuasiNewton ℝ n) (s y : Vector ℝ n) :
    let scaled := q.rescaled s y
    let bs := scaled.matrix.mulVec s
    let r := dampedChange y bs (Dense.inner s y) (Dense.inner s bs)
    (Dense.inner s bs ≤ 1e-12 ∨ Dense.inner s r ≤ 1e-12) ∧
        q.update s y = { scaled with skipped := scaled.skipped + 1 } ∨
      (1e-12 < Dense.inner s bs ∧ 1e-12 < Dense.inner s r) ∧
        ∃ b, q.update s y = { scaled with matrix := b } ∧
          b.toMatrix = rankTwo scaled.matrix.toMatrix s.get r.get := by
  dsimp only
  unfold update
  dsimp only
  split
  · rename_i flat
    exact .inl ⟨.inl flat, rfl⟩
  · rename_i curved
    split
    · rename_i small
      exact .inl ⟨.inr small, rfl⟩
    · rename_i changed
      refine .inr ⟨⟨not_le.mp curved, not_le.mp changed⟩, _, rfl, ?_⟩
      rw [Dense.toMatrix_rankTwo, rankTwo, ← Dense.get_mulVec_eq, ← Dense.inner_eq_dotProduct,
        ← Dense.inner_eq_dotProduct]

/-- An updated matrix maps the step to its change. -/
theorem mulVec_of_rankTwo {a b : Dense ℝ n n} {r : Vector ℝ n}
    (two : b.toMatrix = rankTwo a.toMatrix s.get r.get) (curved : 0 < Dense.inner s (a.mulVec s))
    (changed : 0 < Dense.inner s r) : b.mulVec s = r := by
  rw [Dense.inner_eq_dotProduct] at curved changed
  rw [Dense.get_mulVec_eq] at curved
  refine ext_get fun i => ?_
  rw [Dense.get_mulVec_eq, two, rankTwo_mulVec_self changed.ne' curved.ne']

theorem Definite.update (definite : q.Definite) (s y : Vector ℝ n) : (q.update s y).Definite := by
  have scaled := definite.rescaled s y
  obtain ⟨-, skipped⟩ | ⟨⟨curved, changed⟩, b, updated, two⟩ := q.update_cases s y
  · rw [skipped]
    exact scaled
  · rw [definite_iff, updated, two]
    rw [Dense.inner_eq_dotProduct] at changed curved
    rw [Dense.get_mulVec_eq] at curved
    exact rankTwo_posDef scaled.2 (pos_of_curved changed) (pos_of_curved curved)

theorem Definite.form_nonneg (definite : q.Definite) (s : Vector ℝ n) :
    0 ≤ Dense.inner s (q.matrix.mulVec s) := by
  rw [Dense.inner_eq_dotProduct, Dense.get_mulVec_eq]
  simpa using definite.2.posSemidef.dotProduct_mulVec_nonneg s.get

noncomputable def after (pairs : List (Vector ℝ n × Vector ℝ n)) : QuasiNewton ℝ n :=
  pairs.foldl (fun q p => q.update p.1 p.2) initial

theorem definite_after (pairs : List (Vector ℝ n × Vector ℝ n)) : (after pairs).Definite := by
  induction pairs using List.reverseRecOn with
  | nil => exact definite_initial
  | append_singleton pairs p ih =>
    rw [after, List.foldl_append]
    exact ih.update p.1 p.2

/-- After any pairs the matrix is symmetric and positive definite. The next pair rescales it if and
only if none has before and the pair has curvature. Then the pair is skipped, with no further change,
if and only if the form of its step or its damped change is too small; otherwise the matrix gets a
rank-two update and maps the step to that change, which has at least a fifth of the curvature. -/
theorem quasiNewton_stays_definite (pairs : List (Vector ℝ n × Vector ℝ n)) :
    (after pairs).matrix.Symmetric ∧ (after pairs).matrix.toMatrix.PosDef ∧ ∀ s y : Vector ℝ n,
      let q := after pairs
      let b := (q.rescaled s y).matrix
      let bs := b.mulVec s
      let sbs := Dense.inner s bs
      let sy := Dense.inner s y
      let q' := q.update s y
      ((q.scaled = true ∨ sy ≤ 1e-12) ∧ b = q.matrix ∧ q'.scaled = q.scaled ∨
        (q.scaled = false ∧ 1e-12 < sy) ∧ q'.scaled = true ∧
          b = Dense.identity.scale (Dense.inner y y / sy)) ∧
      ∃ r,
        (0.2 * sbs ≤ sy → r = y) ∧
        (sy < 0.2 * sbs → Dense.inner s r = 0.2 * sbs ∧ ∀ i, r.get i =
          (1 - 0.2) * sbs / (sbs - sy) * y.get i +
            (1 - (1 - 0.2) * sbs / (sbs - sy)) * bs.get i) ∧
        ((sbs ≤ 1e-12 ∨ Dense.inner s r ≤ 1e-12) ∧ q'.skipped = q.skipped + 1 ∧ q'.matrix = b ∨
          (1e-12 < sbs ∧ 1e-12 < Dense.inner s r) ∧ q'.skipped = q.skipped ∧
            q'.matrix.toMatrix = rankTwo b.toMatrix s.get r.get ∧ q'.matrix.mulVec s = r ∧
            0 < 0.2 * sbs ∧ 0.2 * sbs ≤ Dense.inner s r) := by
  have definite := definite_after pairs
  refine ⟨definite.1, definite.2, fun s y => ?_⟩
  have nonneg := (definite.rescaled s y).form_nonneg s
  dsimp only
  generalize after pairs = q at nonneg ⊢
  have counted : (q.rescaled s y).skipped = q.skipped := by
    obtain ⟨-, same⟩ | ⟨-, scaled⟩ := q.rescaled_cases s y
    · rw [same]
    · rw [scaled]
  have flagged : (q.update s y).scaled = (q.rescaled s y).scaled := by
    obtain ⟨-, skipped⟩ | ⟨-, b, updated, -⟩ := q.update_cases s y
    · rw [skipped]
    · rw [updated]
  refine ⟨?_, dampedChange y ((q.rescaled s y).matrix.mulVec s) (Dense.inner s y)
    (Dense.inner s ((q.rescaled s y).matrix.mulVec s)), ?_, ?_, ?_⟩
  · obtain ⟨used, same⟩ | ⟨fresh, scaled⟩ := q.rescaled_cases s y
    · rw [flagged, same]
      exact .inl ⟨used, rfl, rfl⟩
    · rw [flagged, scaled]
      exact .inr ⟨fresh, rfl, rfl⟩
  · intro enough
    obtain ⟨-, whole⟩ | ⟨small, -⟩ := dampedChange_cases nonneg y
    · exact whole
    · exact absurd enough small.not_ge
  · intro small
    obtain ⟨enough, -⟩ | ⟨-, blend⟩ := dampedChange_cases nonneg y
    · exact absurd enough small.not_ge
    · exact blend
  · obtain ⟨flat, skipped⟩ | ⟨curved, b, updated, two⟩ := q.update_cases s y
    · rw [skipped, counted]
      exact .inl ⟨flat, rfl, rfl⟩
    · have positive := pos_of_curved curved.1
      rw [updated]
      refine .inr ⟨curved, counted, two,
        mulVec_of_rankTwo two positive (pos_of_curved curved.2), by positivity, ?_⟩
      obtain ⟨enough, whole⟩ | ⟨-, product, -⟩ := dampedChange_cases nonneg y
      · rw [whole]
        exact enough
      · exact product.ge

end QuasiNewton

end SmoothOpt
