import Mathlib
import SmoothOpt.Barrier.Iterate
import SmoothOpt.Proofs.Linear.Entries

/-!
Pushing a point inside its box is a projection.

The bounds of an entry moved inwards enclose a range. It is not empty: where both bounds are
present, each side gives up at most half of the width. The pushed entry lies in that range, and
between the entry and any point of it. So it is the nearest point of the range, an entry of the
range stays where it is, and a second push changes nothing.
-/
namespace SmoothOpt

open Scalar Linear

variable {n : Nat}

/-- The range between two bounds moved inwards by `kappa1 max(1, |bound|)`, at most by the share
`kappa2` of the width; it has no end where a bound is absent. -/
def innerRange (kappa1 kappa2 : ℝ) (lo hi : Bound ℝ) : Set ℝ :=
  match lo.present, hi.present with
  | true, true =>
    Set.Icc (lo.value + min (kappa1 * max |lo.value| 1) (kappa2 * (hi.value - lo.value)))
      (hi.value - min (kappa1 * max |hi.value| 1) (kappa2 * (hi.value - lo.value)))
  | true, false => Set.Ici (lo.value + kappa1 * max |lo.value| 1)
  | false, true => Set.Iic (hi.value - kappa1 * max |hi.value| 1)
  | false, false => Set.univ

/-- The point `p` is the one of `range` that is nearest to `v`: every other one is farther away. -/
structure NearestIn (range : Set ℝ) (v p : ℝ) : Prop where
  mem : p ∈ range
  nearer : ∀ q ∈ range, q ≠ p → |p - v| < |q - v|

/-- Where both bounds are present, the lower one is below the upper one. -/
def Box.Separated (b : Box ℝ n) : Prop :=
  ∀ i, (b.lower.get i).present = true → (b.upper.get i).present = true →
    (b.lower.get i).value < (b.upper.get i).value

/-- A point that lies between `v` and any point of a range that holds it is the nearest one. -/
theorem NearestIn.of_between {range : Set ℝ} {v p : ℝ} (mem : p ∈ range)
    (between : ∀ q ∈ range, p ∈ Set.uIcc v q) : NearestIn range v p := by
  refine ⟨mem, fun q inside other => ?_⟩
  obtain ⟨v_le, le_q⟩ | ⟨q_le, le_v⟩ := Set.mem_uIcc.mp (between q inside)
  · have below : p < q := lt_of_le_of_ne le_q other.symm
    rw [abs_of_nonneg (by linarith), abs_of_nonneg (by linarith)]
    linarith
  · have above : q < p := lt_of_le_of_ne q_le other
    rw [abs_of_nonpos (by linarith), abs_of_nonpos (by linarith)]
    linarith

section Entry

variable {kappa1 kappa2 : ℝ} {lo hi : Bound ℝ}

/-- A push that is limited to half of the width from either side does not cross the other. -/
theorem insets_apart {l u a b : ℝ} (ordered : l ≤ u) (kappa2_le : kappa2 ≤ 1 / 2) :
    l + min a (kappa2 * (u - l)) ≤ u - min b (kappa2 * (u - l)) := by
  have width_nonneg : 0 ≤ u - l := sub_nonneg.mpr ordered
  have half : kappa2 * (u - l) ≤ 1 / 2 * (u - l) :=
    mul_le_mul_of_nonneg_right kappa2_le width_nonneg
  have low := min_le_right a (kappa2 * (u - l))
  have high := min_le_right b (kappa2 * (u - l))
  linarith

theorem push_pos (kappa1_pos : 0 < kappa1) (b : ℝ) : 0 < kappa1 * max |b| 1 := by positivity

theorem inset_pos {l u : ℝ} (kappa1_pos : 0 < kappa1) (kappa2_pos : 0 < kappa2) (ordered : l < u)
    (b : ℝ) : 0 < min (kappa1 * max |b| 1) (kappa2 * (u - l)) :=
  lt_min (push_pos kappa1_pos b) (mul_pos kappa2_pos (sub_pos.mpr ordered))

/-- Every value of the inner range is strictly within the bounds that are present. -/
theorem strictly_within_of_mem_innerRange (kappa1_pos : 0 < kappa1) (kappa2_pos : 0 < kappa2)
    (ordered : lo.present = true → hi.present = true → lo.value < hi.value) {t : ℝ}
    (mem : t ∈ innerRange kappa1 kappa2 lo hi) :
    (lo.present = true → lo.value < t) ∧ (hi.present = true → t < hi.value) := by
  obtain ⟨l, has_lo⟩ := lo
  obtain ⟨u, has_hi⟩ := hi
  cases has_lo <;> cases has_hi <;>
    simp only [innerRange, Bool.false_eq_true, false_implies, forall_const, true_and, and_true]
      at ordered mem ⊢
  · have gap := push_pos kappa1_pos u
    have below : t ≤ u - kappa1 * max |u| 1 := mem
    linarith
  · have gap := push_pos kappa1_pos l
    have above : l + kappa1 * max |l| 1 ≤ t := mem
    linarith
  · have low := inset_pos kappa1_pos kappa2_pos ordered l
    have high := inset_pos kappa1_pos kappa2_pos ordered u
    obtain ⟨above, below⟩ := mem
    constructor <;> linarith

theorem pushInside_mem_innerRange (kappa2_le : kappa2 ≤ 1 / 2)
    (ordered : lo.present = true → hi.present = true → lo.value ≤ hi.value) (v : ℝ) :
    pushInside kappa1 kappa2 lo hi v ∈ innerRange kappa1 kappa2 lo hi := by
  obtain ⟨l, has_lo⟩ := lo
  obtain ⟨u, has_hi⟩ := hi
  cases has_lo <;> cases has_hi <;>
    simp only [pushInside, innerRange, maxNum_real, minNum_real, magnitude_real]
  · trivial
  · exact Set.mem_Iic.mpr (min_le_right _ _)
  · exact Set.mem_Ici.mpr (le_max_right _ _)
  · have apart := insets_apart (a := kappa1 * max |l| 1) (b := kappa1 * max |u| 1)
      (ordered rfl rfl) kappa2_le
    exact ⟨le_min (le_max_right _ _) apart, min_le_right _ _⟩

/-- The pushed value lies between the value and any value of the inner range. -/
theorem pushInside_between (v : ℝ) {q : ℝ} (inside : q ∈ innerRange kappa1 kappa2 lo hi) :
    pushInside kappa1 kappa2 lo hi v ∈ Set.uIcc v q := by
  obtain ⟨l, has_lo⟩ := lo
  obtain ⟨u, has_hi⟩ := hi
  cases has_lo <;> cases has_hi <;>
    simp only [pushInside, maxNum_real, minNum_real, magnitude_real]
  · exact Set.left_mem_uIcc
  · have below : q ≤ u - kappa1 * max |u| 1 := inside
    exact ⟨min_le_min_left v below, (min_le_left _ _).trans (le_max_left v q)⟩
  · have above : l + kappa1 * max |l| 1 ≤ q := inside
    exact ⟨(min_le_left v q).trans (le_max_left _ _), max_le_max_left v above⟩
  · obtain ⟨above, below⟩ := inside
    constructor
    · exact le_min ((min_le_left v q).trans (le_max_left _ _)) ((min_le_right v q).trans below)
    · exact (min_le_left _ _).trans (max_le_max_left v above)

theorem pushInside_of_mem {v : ℝ} (inside : v ∈ innerRange kappa1 kappa2 lo hi) :
    pushInside kappa1 kappa2 lo hi v = v := by
  have between := pushInside_between v inside
  rwa [Set.uIcc_self, Set.mem_singleton_iff] at between

theorem pushInside_nearest (kappa2_le : kappa2 ≤ 1 / 2)
    (ordered : lo.present = true → hi.present = true → lo.value ≤ hi.value) (v : ℝ) :
    NearestIn (innerRange kappa1 kappa2 lo hi) v (pushInside kappa1 kappa2 lo hi v) :=
  .of_between (pushInside_mem_innerRange kappa2_le ordered v) fun _ => pushInside_between v

theorem pushInside_of_absent (lower : lo.present = false) (upper : hi.present = false) (v : ℝ) :
    pushInside kappa1 kappa2 lo hi v = v := by
  rw [pushInside, lower, upper]

theorem pushInside_mono : Monotone (pushInside kappa1 kappa2 lo hi) := by
  intro v w le
  unfold pushInside
  cases lo.present <;> cases hi.present <;> simp only [maxNum_real, minNum_real]
  · exact le
  · exact min_le_min_right _ le
  · exact max_le_max_right _ le
  · exact min_le_min_right _ (max_le_max_right _ le)

end Entry

namespace Box

variable {b : Box ℝ n} {kappa1 kappa2 : ℝ}

@[simp] theorem get_pushInside (kappa1 kappa2 : ℝ) (v : Vector ℝ n) (i : Fin n) :
    (b.pushInside kappa1 kappa2 v).get i =
      SmoothOpt.pushInside kappa1 kappa2 (b.lower.get i) (b.upper.get i) (v.get i) :=
  Vector.get_ofFn _ i

/-- With a positive push of at most half of the width, pushing a vector into a box moves every entry
to the nearest point of its inner range, which is not empty and lies strictly within the bounds. An
entry of that range and one without bounds stay where they are, a second push changes nothing, and
larger vectors are pushed to larger ones. -/
theorem pushInside_projects (separated : b.Separated) (kappa1_pos : 0 < kappa1)
    (kappa2_pos : 0 < kappa2) (kappa2_le : kappa2 ≤ 1 / 2) :
    (∀ i, (innerRange kappa1 kappa2 (b.lower.get i) (b.upper.get i)).Nonempty) ∧
    (∀ v i,
      NearestIn (innerRange kappa1 kappa2 (b.lower.get i) (b.upper.get i)) (v.get i)
        ((b.pushInside kappa1 kappa2 v).get i) ∧
      ((b.lower.get i).present = true →
        (b.lower.get i).value < (b.pushInside kappa1 kappa2 v).get i) ∧
      ((b.upper.get i).present = true →
        (b.pushInside kappa1 kappa2 v).get i < (b.upper.get i).value) ∧
      (v.get i ∈ innerRange kappa1 kappa2 (b.lower.get i) (b.upper.get i) →
        (b.pushInside kappa1 kappa2 v).get i = v.get i) ∧
      ((b.lower.get i).present = false → (b.upper.get i).present = false →
        (b.pushInside kappa1 kappa2 v).get i = v.get i)) ∧
    (∀ v, b.pushInside kappa1 kappa2 (b.pushInside kappa1 kappa2 v) =
      b.pushInside kappa1 kappa2 v) ∧
    ∀ v w : Vector ℝ n, (∀ i, v.get i ≤ w.get i) → ∀ i,
      (b.pushInside kappa1 kappa2 v).get i ≤ (b.pushInside kappa1 kappa2 w).get i := by
  have ordered : ∀ i, (b.lower.get i).present = true → (b.upper.get i).present = true →
      (b.lower.get i).value ≤ (b.upper.get i).value :=
    fun i lower upper => (separated i lower upper).le
  have mem : ∀ (v : Vector ℝ n) i, (b.pushInside kappa1 kappa2 v).get i ∈
      innerRange kappa1 kappa2 (b.lower.get i) (b.upper.get i) := by
    intro v i
    rw [get_pushInside]
    exact pushInside_mem_innerRange kappa2_le (ordered i) (v.get i)
  refine ⟨?nonempty, ?entries, ?twice, ?monotone⟩
  case nonempty =>
    intro i
    exact ⟨_, mem (Vector.replicate n 0) i⟩
  case entries =>
    intro v i
    have within := strictly_within_of_mem_innerRange kappa1_pos kappa2_pos (separated i) (mem v i)
    refine ⟨?_, within.1, within.2, ?_, ?_⟩
    · rw [get_pushInside]
      exact pushInside_nearest kappa2_le (ordered i) (v.get i)
    · intro inside
      rw [get_pushInside, pushInside_of_mem inside]
    · intro lower upper
      rw [get_pushInside, pushInside_of_absent lower upper]
  case twice =>
    intro v
    apply ext_get
    intro i
    rw [get_pushInside, pushInside_of_mem (mem v i)]
  case monotone =>
    intro v w le i
    rw [get_pushInside, get_pushInside]
    exact pushInside_mono (le i)

end Box

namespace Halves

/-- The range from zero to one, and a lower bound of three with no upper one. -/
noncomputable def box : Box ℝ 2 where
  lower := Vector.ofFn fun i => ⟨3.0 * i.val, true⟩
  upper := Vector.ofFn fun i => ⟨1, i.val == 0⟩

/-- Below the range, and well above the lower bound. -/
noncomputable def start : Vector ℝ 2 := Vector.ofFn fun i => 10.0 * i.val - 3.0

theorem separated : box.Separated := by
  intro i _ upper
  fin_cases i
  · simp [box]
  · simp [box] at upper

/-- Pushes by half of the width from both sides leave the middle. -/
theorem innerRange_first : innerRange 1 (1 / 2) (box.lower.get 0) (box.upper.get 0) = {1 / 2} := by
  simp only [innerRange, box, Vector.get_ofFn]
  norm_num

theorem second_mem : start.get 1 ∈ innerRange 1 (1 / 2) (box.lower.get 1) (box.upper.get 1) := by
  have above : (3.0 : ℝ) + 1 * max |3.0| 1 ≤ 10.0 - 3.0 := by
    norm_num
  simpa [innerRange, box, start] using above

/-- So the first entry ends in the middle, and the second one stays where it is. -/
theorem pushed_to_middle :
    NearestIn {1 / 2} (-3) ((box.pushInside 1 (1 / 2) start).get 0) ∧
      (box.pushInside 1 (1 / 2) start).get 1 = 7 ∧
      box.pushInside 1 (1 / 2) (box.pushInside 1 (1 / 2) start) =
        box.pushInside 1 (1 / 2) start := by
  obtain ⟨-, entries, twice, -⟩ := Box.pushInside_projects separated one_pos one_half_pos le_rfl
  obtain ⟨nearest, -⟩ := entries start 0
  obtain ⟨-, -, -, stays, -⟩ := entries start 1
  have below : start.get 0 = -3 := by
    norm_num [start]
  have above : start.get 1 = 7 := by
    norm_num [start]
  rw [innerRange_first, below] at nearest
  exact ⟨nearest, (stays second_mem).trans above, twice start⟩

end Halves

end SmoothOpt
