import Mathlib
import SmoothOpt.Barrier.Iterate
import SmoothOpt.Proofs.Linear.Entries

/-!
Interior points, and what each operation on an iterate does to them.

A bound vector flags the entries of four vectors: two of distances and two of multipliers. At a
present bound distance and multiplier are positive, at an absent one both are zero. The carried
distances exceed the true ones by a fixed gap, the one the floor at the start left. A step keeps
all of this as long as it obeys the fraction-to-boundary rule.
-/
namespace SmoothOpt

open Scalar Linear

variable {n : Nat} {d : Dims}

/-- Positive where the bound is present, zero where it is absent. -/
def PositiveWhere (b : Vector (Bound ℝ) n) (v : Vector ℝ n) : Prop :=
  ∀ i, if (b.get i).present then 0 < v.get i else v.get i = 0

theorem PositiveWhere.pos {b : Vector (Bound ℝ) n} {v : Vector ℝ n} (h : PositiveWhere b v)
    {i : Fin n} (present : (b.get i).present = true) : 0 < v.get i := by
  have entry := h i
  rwa [if_pos present] at entry

theorem PositiveWhere.zero {b : Vector (Bound ℝ) n} {v : Vector ℝ n} (h : PositiveWhere b v)
    {i : Fin n} (absent : (b.get i).present = false) : v.get i = 0 := by
  have entry := h i
  rwa [absent, if_neg Bool.false_ne_true] at entry

/-- Every flagged entry keeps at least the share `1 - tau` of its value. -/
def KeepsShare (b : Vector (Bound ℝ) n) (tau : ℝ) (v v' : Vector ℝ n) : Prop :=
  ∀ i, (b.get i).present = true → (1 - tau) * v.get i ≤ v'.get i

/-- Entries that do not move keep every share. -/
theorem KeepsShare.of_still {b : Vector (Bound ℝ) n} {tau : ℝ} {v v' : Vector ℝ n}
    (positive : ∀ i, (b.get i).present = true → 0 < v.get i) (tau_nonneg : 0 ≤ tau)
    (still : ∀ i, (b.get i).present = true → v'.get i = v.get i) : KeepsShare b tau v v' := by
  intro i present
  rw [still i present]
  have share : 0 ≤ tau * v.get i := mul_nonneg tau_nonneg (positive i present).le
  linarith

theorem PositiveWhere.of_keepsShare {b : Vector (Bound ℝ) n} {v v' : Vector ℝ n} {tau : ℝ}
    (positive : PositiveWhere b v) (small : tau < 1) (kept : KeepsShare b tau v v')
    (absent : ∀ i, (b.get i).present = false → v'.get i = v.get i) : PositiveWhere b v' := by
  intro i
  cases present : (b.get i).present with
  | true =>
    have share : 0 < (1 - tau) * v.get i := mul_pos (by linarith) (positive.pos present)
    simpa using share.trans_le (kept i present)
  | false => simpa [absent i present] using positive.zero present

/-- One flagged entry under the fraction-to-boundary rule: a step length obeys the bound taken from
a decreasing entry when and only when the entry keeps its share. -/
theorem le_boundary_iff {s step tau t : ℝ} (decreasing : step < 0) :
    t ≤ -tau * s / step ↔ (1 - tau) * s ≤ s + t * step := by
  rw [le_div_iff_of_neg decreasing]
  constructor <;> intro h <;> linarith

theorem le_foldl_boundary_iff {sign tau t : ℝ} (l : List (ℝ × ℝ)) (a : ℝ) :
    t ≤ l.foldl (fun acc p =>
        if sign * p.2 < 0 then minNum acc (-tau * p.1 / (sign * p.2)) else acc) a ↔
      t ≤ a ∧ ∀ p ∈ l, sign * p.2 < 0 → t ≤ -tau * p.1 / (sign * p.2) := by
  induction l generalizing a with
  | nil => simp
  | cons p l ih =>
    rw [List.foldl_cons, ih, List.forall_mem_cons]
    split
    · rename_i decreasing
      rw [minNum_real, le_min_iff]
      tauto
    · tauto

theorem foldl_boundary_pos {sign tau : ℝ} (tau_pos : 0 < tau) {l : List (ℝ × ℝ)} {a : ℝ}
    (entries : ∀ p ∈ l, 0 < p.1) (a_pos : 0 < a) :
    0 < l.foldl (fun acc p =>
      if sign * p.2 < 0 then minNum acc (-tau * p.1 / (sign * p.2)) else acc) a := by
  induction l generalizing a with
  | nil => exact a_pos
  | cons p l ih =>
    obtain ⟨here, later⟩ := List.forall_mem_cons.mp entries
    rw [List.foldl_cons]
    apply ih later
    split
    · rename_i decreasing
      have share : -tau * p.1 < 0 := mul_neg_of_neg_of_pos (neg_neg_of_pos tau_pos) here
      rw [minNum_real]
      exact lt_min a_pos (div_pos_of_neg_of_neg share decreasing)
    · exact a_pos

/-- Positive entries allow a positive step length. -/
theorem fractionToBoundary_pos {b : Vector (Bound ℝ) n} {v : Vector ℝ n} {tau alpha : ℝ}
    (positive : ∀ i, (b.get i).present = true → 0 < v.get i) (tau_pos : 0 < tau)
    (alpha_pos : 0 < alpha) (dv : Vector ℝ n) (sign : ℝ) :
    0 < fractionToBoundary v.toList dv.toList sign (b.toList.map (·.present)) tau alpha := by
  rw [fractionToBoundary, masked_zip_toList]
  apply foldl_boundary_pos tau_pos _ alpha_pos
  simp only [List.forall_mem_map, List.mem_filter, List.mem_finRange, true_and]
  exact positive

/-- The step lengths the rule allows are those that keep the share of every flagged entry. -/
theorem le_fractionToBoundary_iff {b : Vector (Bound ℝ) n} {v dv : Vector ℝ n}
    {sign tau alpha t : ℝ} (v' : Vector ℝ n)
    (positive : ∀ i, (b.get i).present = true → 0 < v.get i) (tau_nonneg : 0 ≤ tau)
    (t_nonneg : 0 ≤ t)
    (moved : ∀ i, (b.get i).present = true → v'.get i = v.get i + t * (sign * dv.get i)) :
    t ≤ fractionToBoundary v.toList dv.toList sign (b.toList.map (·.present)) tau alpha ↔
      t ≤ alpha ∧ KeepsShare b tau v v' := by
  rw [fractionToBoundary, le_foldl_boundary_iff, masked_zip_toList]
  apply and_congr_right
  intro _
  simp only [List.forall_mem_map, List.mem_filter, List.mem_finRange, true_and]
  apply forall_congr'
  intro i
  apply imp_congr_right
  intro present
  rw [moved i present]
  constructor
  · intro h
    by_cases decreasing : sign * dv.get i < 0
    · exact (le_boundary_iff decreasing).mp (h decreasing)
    · have grows : 0 ≤ t * (sign * dv.get i) := mul_nonneg t_nonneg (not_lt.mp decreasing)
      have share : 0 ≤ tau * v.get i := mul_nonneg tau_nonneg (positive i present).le
      linarith
  · intro kept decreasing
    exact (le_boundary_iff decreasing).mpr kept

/-- Clipping puts a multiplier between its two limits, whatever it was. -/
theorem clipped_mem {mu kappa s z : ℝ} (mu_pos : 0 < mu) (kappa_ge : 1 ≤ kappa) (s_pos : 0 < s) :
    mu / (kappa * s) ≤ clipped mu kappa s z ∧ clipped mu kappa s z ≤ kappa * mu / s := by
  have ordered : mu / (kappa * s) ≤ kappa * mu / s := by
    rw [div_le_div_iff₀ (by positivity) s_pos]
    have square : 1 ≤ kappa * kappa := one_le_mul_of_one_le_of_one_le kappa_ge kappa_ge
    calc mu * s = 1 * (mu * s) := (one_mul _).symm
      _ ≤ kappa * kappa * (mu * s) := mul_le_mul_of_nonneg_right square (by positivity)
      _ = kappa * mu * (kappa * s) := by ring
  simp only [clipped, maxNum_real, minNum_real]
  exact ⟨le_min (le_max_right _ _) ordered, min_le_right _ _⟩

/-- The product of a distance with its clipped multiplier stays within the factor `kappa` of
`mu`. -/
theorem clipped_window {mu kappa s z : ℝ} (mu_pos : 0 < mu) (kappa_ge : 1 ≤ kappa)
    (s_pos : 0 < s) : 0 < clipped mu kappa s z ∧ mu / kappa ≤ s * clipped mu kappa s z ∧
      s * clipped mu kappa s z ≤ kappa * mu := by
  obtain ⟨lower, upper⟩ := clipped_mem (z := z) mu_pos kappa_ge s_pos
  have kappa_pos : 0 < kappa := lt_of_lt_of_le one_pos kappa_ge
  refine ⟨lt_of_lt_of_le (by positivity) lower, ?_, ?_⟩
  · have scaled := mul_le_mul_of_nonneg_left lower s_pos.le
    have cancelled : s * (mu / (kappa * s)) = mu / kappa := by field_simp
    rwa [cancelled] at scaled
  · have scaled := mul_le_mul_of_nonneg_left upper s_pos.le
    have cancelled : s * (kappa * mu / s) = kappa * mu := by field_simp
    rwa [cancelled] at scaled

namespace Block

/-- Distances and multipliers are positive at present bounds and zero at absent ones. -/
structure Interior (k : Block ℝ n) (b : Box ℝ n) : Prop where
  slackLo : PositiveWhere b.lower k.slackLo
  slackHi : PositiveWhere b.upper k.slackHi
  multLo : PositiveWhere b.lower k.multLo
  multHi : PositiveWhere b.upper k.multHi

structure SlacksPositive (k : Block ℝ n) (b : Box ℝ n) : Prop where
  lower : ∀ i, (b.lower.get i).present = true → 0 < k.slackLo.get i
  upper : ∀ i, (b.upper.get i).present = true → 0 < k.slackHi.get i

structure MultipliersPositive (k : Block ℝ n) (b : Box ℝ n) : Prop where
  lower : ∀ i, (b.lower.get i).present = true → 0 < k.multLo.get i
  upper : ∀ i, (b.upper.get i).present = true → 0 < k.multHi.get i

/-- The carried distances exceed the true ones by what a floor adds to those of `start`. -/
structure CarriedFrom (k : Block ℝ n) (b : Box ℝ n) (floor : ℝ) (start : Vector ℝ n) : Prop where
  lower : ∀ i, (b.lower.get i).present = true →
    k.slackLo.get i - (k.point.get i - (b.lower.get i).value) =
      max 0 (floor - (start.get i - (b.lower.get i).value))
  upper : ∀ i, (b.upper.get i).present = true →
    k.slackHi.get i - ((b.upper.get i).value - k.point.get i) =
      max 0 (floor - ((b.upper.get i).value - start.get i))

/-- Every product of a present distance with its multiplier is within the factor `kappa` of
`mu`. -/
structure Clipped (k : Block ℝ n) (b : Box ℝ n) (mu kappa : ℝ) : Prop where
  lower : ∀ i, (b.lower.get i).present = true →
    mu / kappa ≤ k.slackLo.get i * k.multLo.get i ∧ k.slackLo.get i * k.multLo.get i ≤ kappa * mu
  upper : ∀ i, (b.upper.get i).present = true →
    mu / kappa ≤ k.slackHi.get i * k.multHi.get i ∧ k.slackHi.get i * k.multHi.get i ≤ kappa * mu

/-- The distances of `k'` keep their shares of those of `k`. -/
def SlacksKept (k k' : Block ℝ n) (b : Box ℝ n) (tau : ℝ) : Prop :=
  KeepsShare b.lower tau k.slackLo k'.slackLo ∧ KeepsShare b.upper tau k.slackHi k'.slackHi

/-- The multipliers of `k'` keep their shares of those of `k`. -/
def MultipliersKept (k k' : Block ℝ n) (b : Box ℝ n) (tau : ℝ) : Prop :=
  KeepsShare b.lower tau k.multLo k'.multLo ∧ KeepsShare b.upper tau k.multHi k'.multHi

variable {k : Block ℝ n} {b : Box ℝ n}

theorem interior_start {floor value : ℝ} (floor_pos : 0 < floor) (value_pos : 0 < value) :
    ((k.withSlacks b floor).withMultipliers b value).Interior b := by
  constructor <;> intro i
  · cases present : (b.lower.get i).present <;> simp [withSlacks, withMultipliers, *]
  · cases present : (b.upper.get i).present <;> simp [withSlacks, withMultipliers, *]
  · cases present : (b.lower.get i).present <;> simp [withSlacks, withMultipliers, *]
  · cases present : (b.upper.get i).present <;> simp [withSlacks, withMultipliers, *]

theorem carriedFrom_start (floor value : ℝ) :
    ((k.withSlacks b floor).withMultipliers b value).CarriedFrom b floor k.point := by
  constructor <;> intro i present
  · simp only [withSlacks, withMultipliers, Vector.get_ofFn, present, if_true, maxNum_real]
    rw [← max_sub_sub_right, sub_self]
  · simp only [withSlacks, withMultipliers, Vector.get_ofFn, present, if_true, maxNum_real]
    rw [← max_sub_sub_right, sub_self]

/-- A move changes a carried distance by as much as the true one. -/
theorem CarriedFrom.moved {floor alpha : ℝ} {start : Vector ℝ n} (h : k.CarriedFrom b floor start)
    (step : BlockStep ℝ n) : (k.moved step b alpha).CarriedFrom b floor start := by
  constructor <;> intro i present
  · rw [← h.lower i present]
    simp only [Block.moved, Vector.get_ofFn, present, if_true]
    ring
  · rw [← h.upper i present]
    simp only [Block.moved, Vector.get_ofFn, present, if_true]
    ring

theorem CarriedFrom.of_same {k' : Block ℝ n} {floor : ℝ} {start : Vector ℝ n}
    (h : k.CarriedFrom b floor start) (point : k'.point = k.point) (lo : k'.slackLo = k.slackLo)
    (hi : k'.slackHi = k.slackHi) : k'.CarriedFrom b floor start := by
  constructor
  · rw [lo, point]
    exact h.lower
  · rw [hi, point]
    exact h.upper

theorem Interior.moved {alpha tau : ℝ} {step : BlockStep ℝ n} (h : k.Interior b) (small : tau < 1)
    (kept : k.SlacksKept (k.moved step b alpha) b tau) : (k.moved step b alpha).Interior b := by
  refine ⟨h.slackLo.of_keepsShare small kept.1 ?_, h.slackHi.of_keepsShare small kept.2 ?_,
    h.multLo, h.multHi⟩
  · intro i absent
    simp [Block.moved, absent]
  · intro i absent
    simp [Block.moved, absent]

theorem Interior.multipliersMoved {alpha tau : ℝ} {step : BlockStep ℝ n} (h : k.Interior b)
    (small : tau < 1) (kept : k.MultipliersKept (k.multipliersMoved step b alpha) b tau) :
    (k.multipliersMoved step b alpha).Interior b := by
  refine ⟨h.slackLo, h.slackHi, h.multLo.of_keepsShare small kept.1 ?_,
    h.multHi.of_keepsShare small kept.2 ?_⟩
  · intro i absent
    simp [Block.multipliersMoved, movedWhere, absent]
  · intro i absent
    simp [Block.multipliersMoved, movedWhere, absent]

section Clip

variable {mu kappa : ℝ}

theorem Interior.multipliersClipped (h : k.Interior b) (mu_pos : 0 < mu) (kappa_ge : 1 ≤ kappa) :
    (k.multipliersClipped b mu kappa).Interior b := by
  refine ⟨h.slackLo, h.slackHi, ?_, ?_⟩
  · intro i
    cases present : (b.lower.get i).present with
    | true =>
      simpa [Block.multipliersClipped, present] using
        (clipped_window mu_pos kappa_ge (h.slackLo.pos present)).1
    | false => simpa [Block.multipliersClipped, present] using h.multLo.zero present
  · intro i
    cases present : (b.upper.get i).present with
    | true =>
      simpa [Block.multipliersClipped, present] using
        (clipped_window mu_pos kappa_ge (h.slackHi.pos present)).1
    | false => simpa [Block.multipliersClipped, present] using h.multHi.zero present

theorem Interior.clipped (h : k.Interior b) (mu_pos : 0 < mu) (kappa_ge : 1 ≤ kappa) :
    (k.multipliersClipped b mu kappa).Clipped b mu kappa := by
  constructor <;> intro i present
  · simp only [Block.multipliersClipped, Vector.get_ofFn, present, if_true]
    exact (clipped_window mu_pos kappa_ge (h.slackLo.pos present)).2
  · simp only [Block.multipliersClipped, Vector.get_ofFn, present, if_true]
    exact (clipped_window mu_pos kappa_ge (h.slackHi.pos present)).2

end Clip

end Block

namespace Iterate

variable {it : Iterate ℝ d} {b : Bounds ℝ d} {dir : Direction ℝ d} {tau t : ℝ}

/-- Distances and bound multipliers are positive at present bounds and zero at absent ones. -/
structure Interior (it : Iterate ℝ d) (b : Bounds ℝ d) : Prop where
  x : it.x.Interior b.x
  s : it.s.Interior b.s

structure SlacksPositive (it : Iterate ℝ d) (b : Bounds ℝ d) : Prop where
  x : it.x.SlacksPositive b.x
  s : it.s.SlacksPositive b.s

structure MultipliersPositive (it : Iterate ℝ d) (b : Bounds ℝ d) : Prop where
  x : it.x.MultipliersPositive b.x
  s : it.s.MultipliersPositive b.s

theorem Interior.slacksPositive (h : it.Interior b) : it.SlacksPositive b :=
  ⟨⟨fun _ => h.x.slackLo.pos, fun _ => h.x.slackHi.pos⟩,
    ⟨fun _ => h.s.slackLo.pos, fun _ => h.s.slackHi.pos⟩⟩

theorem Interior.multipliersPositive (h : it.Interior b) : it.MultipliersPositive b :=
  ⟨⟨fun _ => h.x.multLo.pos, fun _ => h.x.multHi.pos⟩,
    ⟨fun _ => h.s.multLo.pos, fun _ => h.s.multHi.pos⟩⟩

/-- The carried distances exceed the true ones by what a floor adds to those of `start`. -/
structure CarriedFrom (it : Iterate ℝ d) (b : Bounds ℝ d) (floor : ℝ) (start : Iterate ℝ d) :
    Prop where
  x : it.x.CarriedFrom b.x floor start.x.point
  s : it.s.CarriedFrom b.s floor start.s.point

/-- Every product of a present distance with its multiplier is within the factor `kappa` of
`mu`. -/
structure Clipped (it : Iterate ℝ d) (b : Bounds ℝ d) (mu kappa : ℝ) : Prop where
  x : it.x.Clipped b.x mu kappa
  s : it.s.Clipped b.s mu kappa

/-- The distances of `it'` keep their shares of those of `it`. -/
def SlacksKept (it it' : Iterate ℝ d) (b : Bounds ℝ d) (tau : ℝ) : Prop :=
  it.x.SlacksKept it'.x b.x tau ∧ it.s.SlacksKept it'.s b.s tau

/-- The bound multipliers of `it'` keep their shares of those of `it`. -/
def MultipliersKept (it it' : Iterate ℝ d) (b : Bounds ℝ d) (tau : ℝ) : Prop :=
  it.x.MultipliersKept it'.x b.x tau ∧ it.s.MultipliersKept it'.s b.s tau

/-- A primal step length is admissible when it is at most one and every distance keeps its
share. -/
theorem le_maxPrimalStep (h : it.SlacksPositive b) (tau_nonneg : 0 ≤ tau) (t_nonneg : 0 ≤ t) :
    t ≤ it.maxPrimalStep dir b tau ↔ t ≤ 1 ∧ it.SlacksKept (it.trial dir b t) b tau := by
  simp only [maxPrimalStep, Box.hasLower, Box.hasUpper]
  rw [le_fractionToBoundary_iff (it.trial dir b t).s.slackHi h.s.upper tau_nonneg t_nonneg,
    le_fractionToBoundary_iff (it.trial dir b t).s.slackLo h.s.lower tau_nonneg t_nonneg,
    le_fractionToBoundary_iff (it.trial dir b t).x.slackHi h.x.upper tau_nonneg t_nonneg,
    le_fractionToBoundary_iff (it.trial dir b t).x.slackLo h.x.lower tau_nonneg t_nonneg]
  · simp only [SlacksKept, Block.SlacksKept, and_assoc]
  all_goals
    intro i present
    simp only [trial, Block.moved, Vector.get_ofFn, present, if_true]
    ring

/-- The same for the bound multipliers. -/
theorem le_maxDualStep (h : it.MultipliersPositive b) (tau_nonneg : 0 ≤ tau) (t_nonneg : 0 ≤ t) :
    t ≤ it.maxDualStep dir b tau ↔ t ≤ 1 ∧ it.MultipliersKept (it.takeBoundStep dir b t) b tau := by
  simp only [maxDualStep, Box.hasLower, Box.hasUpper]
  rw [le_fractionToBoundary_iff (it.takeBoundStep dir b t).s.multHi h.s.upper tau_nonneg t_nonneg,
    le_fractionToBoundary_iff (it.takeBoundStep dir b t).s.multLo h.s.lower tau_nonneg t_nonneg,
    le_fractionToBoundary_iff (it.takeBoundStep dir b t).x.multHi h.x.upper tau_nonneg t_nonneg,
    le_fractionToBoundary_iff (it.takeBoundStep dir b t).x.multLo h.x.lower tau_nonneg t_nonneg]
  · simp only [MultipliersKept, Block.MultipliersKept, and_assoc]
  all_goals
    intro i present
    simp only [takeBoundStep, Block.multipliersMoved, movedWhere, Vector.get_ofFn, present, if_true]
    ring

theorem maxPrimalStep_nonneg (h : it.SlacksPositive b) (tau_nonneg : 0 ≤ tau)
    (dir : Direction ℝ d) :
    0 ≤ it.maxPrimalStep dir b tau := by
  rw [le_maxPrimalStep h tau_nonneg le_rfl]
  refine ⟨zero_le_one, ⟨.of_still h.x.lower tau_nonneg ?_, .of_still h.x.upper tau_nonneg ?_⟩,
    .of_still h.s.lower tau_nonneg ?_, .of_still h.s.upper tau_nonneg ?_⟩
  all_goals
    intro i present
    simp [trial, Block.moved]

theorem maxPrimalStep_le_one (h : it.SlacksPositive b) (tau_nonneg : 0 ≤ tau)
    (dir : Direction ℝ d) : it.maxPrimalStep dir b tau ≤ 1 :=
  ((le_maxPrimalStep h tau_nonneg (maxPrimalStep_nonneg h tau_nonneg dir)).mp le_rfl).1

theorem maxPrimalStep_pos (h : it.SlacksPositive b) (tau_pos : 0 < tau) (dir : Direction ℝ d) :
    0 < it.maxPrimalStep dir b tau := by
  have lower := fractionToBoundary_pos h.x.lower tau_pos one_pos dir.x.point 1
  have upper := fractionToBoundary_pos h.x.upper tau_pos lower dir.x.point (-1)
  have slack := fractionToBoundary_pos h.s.lower tau_pos upper dir.s.point 1
  exact fractionToBoundary_pos h.s.upper tau_pos slack dir.s.point (-1)

theorem maxDualStep_nonneg (h : it.MultipliersPositive b) (tau_nonneg : 0 ≤ tau)
    (dir : Direction ℝ d) :
    0 ≤ it.maxDualStep dir b tau := by
  rw [le_maxDualStep h tau_nonneg le_rfl]
  refine ⟨zero_le_one, ⟨.of_still h.x.lower tau_nonneg ?_, .of_still h.x.upper tau_nonneg ?_⟩,
    .of_still h.s.lower tau_nonneg ?_, .of_still h.s.upper tau_nonneg ?_⟩
  all_goals
    intro i present
    simp [takeBoundStep, Block.multipliersMoved, movedWhere]

theorem maxDualStep_le_one (h : it.MultipliersPositive b) (tau_nonneg : 0 ≤ tau)
    (dir : Direction ℝ d) : it.maxDualStep dir b tau ≤ 1 :=
  ((le_maxDualStep h tau_nonneg (maxDualStep_nonneg h tau_nonneg dir)).mp le_rfl).1

theorem maxDualStep_pos (h : it.MultipliersPositive b) (tau_pos : 0 < tau) (dir : Direction ℝ d) :
    0 < it.maxDualStep dir b tau := by
  have lower := fractionToBoundary_pos h.x.lower tau_pos one_pos dir.x.multLo 1
  have upper := fractionToBoundary_pos h.x.upper tau_pos lower dir.x.multHi 1
  have slack := fractionToBoundary_pos h.s.lower tau_pos upper dir.s.multLo 1
  exact fractionToBoundary_pos h.s.upper tau_pos slack dir.s.multHi 1

theorem Interior.trial (h : it.Interior b) (tau_nonneg : 0 ≤ tau) (small : tau < 1)
    (t_nonneg : 0 ≤ t) (admissible : t ≤ it.maxPrimalStep dir b tau) :
    (it.trial dir b t).Interior b := by
  obtain ⟨-, kept_x, kept_s⟩ :=
    (le_maxPrimalStep h.slacksPositive tau_nonneg t_nonneg).mp admissible
  exact ⟨h.x.moved small kept_x, h.s.moved small kept_s⟩

/-- The longest step of the multipliers keeps the point interior. -/
theorem Interior.takeBoundStep (h : it.Interior b) (tau_nonneg : 0 ≤ tau) (small : tau < 1)
    (dir : Direction ℝ d) : (it.takeBoundStep dir b (it.maxDualStep dir b tau)).Interior b := by
  obtain ⟨-, kept_x, kept_s⟩ :=
    (le_maxDualStep h.multipliersPositive tau_nonneg
      (maxDualStep_nonneg h.multipliersPositive tau_nonneg dir)).mp le_rfl
  exact ⟨h.x.multipliersMoved small kept_x, h.s.multipliersMoved small kept_s⟩

theorem Interior.clip {mu kappa : ℝ} (h : it.Interior b) (mu_pos : 0 < mu) (kappa_ge : 1 ≤ kappa) :
    (it.clip b mu kappa).Interior b :=
  ⟨h.x.multipliersClipped mu_pos kappa_ge, h.s.multipliersClipped mu_pos kappa_ge⟩

theorem Interior.clipped {mu kappa : ℝ} (h : it.Interior b) (mu_pos : 0 < mu)
    (kappa_ge : 1 ≤ kappa) : (it.clip b mu kappa).Clipped b mu kappa :=
  ⟨h.x.clipped mu_pos kappa_ge, h.s.clipped mu_pos kappa_ge⟩

theorem CarriedFrom.trial {floor : ℝ} {start : Iterate ℝ d} (h : it.CarriedFrom b floor start)
    (dir : Direction ℝ d) (t : ℝ) : (it.trial dir b t).CarriedFrom b floor start :=
  ⟨h.x.moved dir.x, h.s.moved dir.s⟩

end Iterate

/-- A direction is small beside a point when each of its steps is. -/
theorem Direction.relativeSize_le_iff (dir : Direction ℝ d) (it : Iterate ℝ d) (bound : ℝ) :
    dir.relativeSize it ≤ bound ↔ 0 ≤ bound ∧
      (∀ i, |dir.x.point.get i| / (1 + |it.x.point.get i|) ≤ bound) ∧
      ∀ j, |dir.s.point.get j| / (1 + |it.s.point.get j|) ≤ bound := by
  simp only [relativeSize, maxNum_real, magnitude_real, toList_eq_map_get, List.zip_map']
  rw [foldl_max_le_iff fun pair : ℝ × ℝ => |pair.1| / (1 + |pair.2|)]
  simp only [List.forall_mem_append, List.forall_mem_map, List.mem_finRange, true_imp_iff]

end SmoothOpt
