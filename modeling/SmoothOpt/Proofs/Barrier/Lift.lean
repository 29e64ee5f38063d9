import Mathlib
import SmoothOpt.Barrier.Residual
import SmoothOpt.Proofs.Barrier.Advance
import SmoothOpt.Proofs.Barrier.Interior
import SmoothOpt.Proofs.Linear.Lift

/-!
Real iterates among the extended ones.

Every operation on an iterate gives the same numbers in both scalars, as long as it divides by no
zero. The only quotients are by a distance to a present bound, which is positive at an interior
point, and by a component of a direction that is negative. The value of an absent bound is never
read, so that it may be infinite.
-/
namespace SmoothOpt

open Scalar Linear

open Extended (finite infinite)

variable {n : Nat} {d : Dims}

section Bounds

def Bound.toReal (b : Bound Extended) : Bound ℝ := ⟨b.value.toReal, b.present⟩

def Box.toReal (b : Box Extended n) : Box ℝ n := ⟨b.lower.map Bound.toReal, b.upper.map Bound.toReal⟩

def Bounds.toReal (b : Bounds Extended d) : Bounds ℝ d := ⟨b.x.toReal, b.s.toReal, b.relaxedFixed⟩

structure Box.IsFinite (b : Box Extended n) : Prop where
  lower : ∀ i, (b.lower.get i).present = true → isFinite (b.lower.get i).value = true
  upper : ∀ i, (b.upper.get i).present = true → isFinite (b.upper.get i).value = true

structure Box.Absent (b : Box Extended n) : Prop where
  lower : ∀ i, (b.lower.get i).present = false
  upper : ∀ i, (b.upper.get i).present = false

@[simp] theorem Box.lower_toReal (b : Box Extended n) (i : Fin n) :
    b.toReal.lower.get i = (b.lower.get i).toReal := Vector.get_map _ _ _

@[simp] theorem Box.upper_toReal (b : Box Extended n) (i : Fin n) :
    b.toReal.upper.get i = (b.upper.get i).toReal := Vector.get_map _ _ _

@[simp] theorem Box.hasLower_toReal (b : Box Extended n) : b.toReal.hasLower = b.hasLower := by
  rw [hasLower, hasLower, toReal, Vector.toList_map, List.map_map]
  rfl

@[simp] theorem Box.hasUpper_toReal (b : Box Extended n) : b.toReal.hasUpper = b.hasUpper := by
  rw [hasUpper, hasUpper, toReal, Vector.toList_map, List.map_map]
  rfl

@[simp] theorem Bound.present_toReal (b : Bound Extended) : b.toReal.present = b.present := rfl

/-- The value of a present bound. -/
theorem Box.IsFinite.lower_value {b : Box Extended n} (h : b.IsFinite) {i : Fin n}
    (present : (b.lower.get i).present = true) :
    (b.lower.get i).value = finite (b.lower.get i).toReal.value :=
  (Extended.finite_toReal (h.lower i present)).symm

theorem Box.IsFinite.upper_value {b : Box Extended n} (h : b.IsFinite) {i : Fin n}
    (present : (b.upper.get i).present = true) :
    (b.upper.get i).value = finite (b.upper.get i).toReal.value :=
  (Extended.finite_toReal (h.upper i present)).symm

end Bounds

section Entries

theorem ofFn_lift {f : Fin n → Extended} {g : Fin n → ℝ} (same : ∀ i, f i = finite (g i)) :
    Vector.ofFn f = lift (Vector.ofFn g) := by
  apply ext_get
  simp [same]

/-- Entries that are computed in one way at present bounds and in another at absent ones. -/
theorem ofFn_where_lift {b : Vector (Bound Extended) n} {f g : Fin n → Extended}
    {f' g' : Fin n → ℝ} (present : ∀ i, (b.get i).present = true → f i = finite (f' i))
    (absent : ∀ i, g i = finite (g' i)) :
    Vector.ofFn (fun i => if (b.get i).present then f i else g i) =
      lift (Vector.ofFn fun i =>
        if ((b.map Bound.toReal).get i).present then f' i else g' i) := by
  apply ofFn_lift
  intro i
  rw [Vector.get_map, Bound.present_toReal]
  split
  · exact present i ‹_›
  · exact absent i

/-- Entries of absent bounds. -/
theorem ofFn_where_absent {b : Vector (Bound Extended) n} (absent : ∀ i, (b.get i).present = false)
    (f : Fin n → Extended) (v : Vector Extended n) :
    Vector.ofFn (fun i => if (b.get i).present then f i else v.get i) = v := by
  apply ext_get
  simp [absent]

theorem PositiveWhere.pos_of_present {b : Vector (Bound Extended) n} {v : Vector ℝ n}
    (h : PositiveWhere (b.map Bound.toReal) v) {i : Fin n} (present : (b.get i).present = true) :
    0 < v.get i :=
  h.pos (by simpa using present)

end Entries

section Operations

theorem pulled_lift (lo hi : Bound Extended) (base l h : ℝ) :
    pulled lo hi (finite base) (finite l) (finite h) =
      finite (pulled lo.toReal hi.toReal base l h) := by
  unfold pulled
  rw [Bound.present_toReal, Bound.present_toReal]
  cases lo.present <;> cases hi.present <;> simp

theorem pull_lift (b : Box Extended n) (base lo hi : Vector ℝ n) :
    Block.pull b (lift base) (lift lo) (lift hi) = lift (Block.pull b.toReal base lo hi) := by
  apply ofFn_lift
  intro i
  simp only [get_lift, pulled_lift, Box.lower_toReal, Box.upper_toReal]

theorem foldl_boundary_lift (sign tau : ℝ) (l : List (ℝ × ℝ)) (alpha : ℝ) :
    (l.map (Prod.map finite finite)).foldl (fun acc p =>
        if finite sign * p.2 < 0 then minNum acc (-finite tau * p.1 / (finite sign * p.2)) else acc)
        (finite alpha) =
      finite (l.foldl (fun acc p =>
        if sign * p.2 < 0 then minNum acc (-tau * p.1 / (sign * p.2)) else acc) alpha) := by
  induction l generalizing alpha with
  | nil => rfl
  | cons p l ih =>
    rw [List.map_cons, List.foldl_cons, List.foldl_cons, ← ih]
    simp only [Prod.map, Extended.zero_eq, Extended.finite_neg, Extended.finite_mul,
      Extended.finite_lt]
    split
    · rename_i decreasing
      rw [Extended.finite_div _ decreasing.ne, Extended.minNum_finite, minNum_real]
    · rfl

/-- The fraction-to-boundary rule divides by negative numbers only. -/
theorem fractionToBoundary_lift (s ds : Vector ℝ n) (sign : ℝ) (mask : List Bool) (tau alpha : ℝ) :
    fractionToBoundary (lift s).toList (lift ds).toList (finite sign) mask (finite tau)
        (finite alpha) =
      finite (fractionToBoundary s.toList ds.toList sign mask tau alpha) := by
  rw [fractionToBoundary, masked_zip_lift]
  exact foldl_boundary_lift sign tau _ alpha

theorem halved_lift (alpha : ℝ) (k : Nat) :
    halved (finite alpha) k = finite (halved alpha k) := by
  induction k generalizing alpha with
  | zero => rfl
  | succ k ih => rw [halved, halved, ← ih, Extended.ofScientific_eq, Extended.finite_mul]

theorem clipped_lift {kappa s : ℝ} (mu z : ℝ) (kappa_pos : 0 < kappa) (s_pos : 0 < s) :
    clipped (finite mu) (finite kappa) (finite s) (finite z) = finite (clipped mu kappa s z) := by
  simp only [clipped, Extended.finite_mul]
  rw [Extended.finite_div _ (mul_pos kappa_pos s_pos).ne', Extended.finite_div _ s_pos.ne',
    Extended.maxNum_finite, Extended.minNum_finite, maxNum_real, minNum_real]

/-- An infinite factor does not clip a positive multiplier. -/
theorem clipped_infinite {mu s z : ℝ} (mu_pos : 0 < mu) (s_pos : 0 < s) (z_pos : 0 < z) :
    clipped (finite mu) (infinite true) (finite s) (finite z) = finite z := by
  have lower : finite mu / (infinite true * finite s) = finite 0 := by
    rw [Extended.infinite_mul_finite _ s_pos]
    rfl
  have upper : infinite true * finite mu / finite s = infinite true := by
    rw [Extended.infinite_mul_finite _ mu_pos, Extended.infinite_div_finite _ s_pos]
  rw [clipped, lower, upper, Extended.maxNum_finite, max_eq_left z_pos.le,
    Extended.minNum_infinite]

/-- One entry moved inside its range. -/
theorem pushInside_lift {lo hi : Bound Extended}
    (lower : lo.present = true → lo.value = finite lo.toReal.value)
    (upper : hi.present = true → hi.value = finite hi.toReal.value) (kappa1 kappa2 v : ℝ) :
    pushInside (finite kappa1) (finite kappa2) lo hi (finite v) =
      finite (pushInside kappa1 kappa2 lo.toReal hi.toReal v) := by
  unfold pushInside
  rw [Bound.present_toReal, Bound.present_toReal]
  cases below : lo.present <;> cases above : hi.present
  · rfl
  · simp [upper above, Extended.one_eq]
  · simp [lower below, Extended.one_eq]
  · simp [lower below, upper above, Extended.one_eq]

theorem Box.pushInside_lift {b : Box Extended n} (finite_bounds : b.IsFinite) (kappa1 kappa2 : ℝ)
    (v : Vector ℝ n) : b.pushInside (finite kappa1) (finite kappa2) (lift v) =
      lift (b.toReal.pushInside kappa1 kappa2 v) := by
  apply ofFn_lift
  intro i
  rw [get_lift, Box.lower_toReal, Box.upper_toReal]
  exact SmoothOpt.pushInside_lift finite_bounds.lower_value finite_bounds.upper_value _ _ _

end Operations

def Block.lift (k : Block ℝ n) : Block Extended n where
  point := Linear.lift k.point
  slackLo := Linear.lift k.slackLo
  slackHi := Linear.lift k.slackHi
  multLo := Linear.lift k.multLo
  multHi := Linear.lift k.multHi

def BlockStep.lift (step : BlockStep ℝ n) : BlockStep Extended n where
  point := Linear.lift step.point
  multLo := Linear.lift step.multLo
  multHi := Linear.lift step.multHi

namespace Block

variable {k : Block ℝ n} {b : Box Extended n}

theorem withSlacks_lift (finite_bounds : b.IsFinite) (k : Block ℝ n) (floor : ℝ) :
    k.lift.withSlacks b (finite floor) = (k.withSlacks b.toReal floor).lift := by
  simp only [withSlacks, lift, mk.injEq, and_true, true_and]
  refine ⟨ofFn_where_lift ?_ fun _ => rfl, ofFn_where_lift ?_ fun _ => rfl⟩
  · intro i present
    rw [get_lift, finite_bounds.lower_value present, Box.lower_toReal, Extended.finite_sub,
      Extended.maxNum_finite, maxNum_real]
  · intro i present
    rw [get_lift, finite_bounds.upper_value present, Box.upper_toReal, Extended.finite_sub,
      Extended.maxNum_finite, maxNum_real]

theorem withMultipliers_lift (k : Block ℝ n) (b : Box Extended n) (value : ℝ) :
    k.lift.withMultipliers b (finite value) = (k.withMultipliers b.toReal value).lift := by
  simp only [withMultipliers, lift, mk.injEq, true_and]
  refine ⟨?_, ?_⟩
  · apply ext_get
    intro i
    simp only [Vector.get_map, get_lift, Box.lower_toReal, Bound.present_toReal]
    split <;> rfl
  · apply ext_get
    intro i
    simp only [Vector.get_map, get_lift, Box.upper_toReal, Bound.present_toReal]
    split <;> rfl

theorem moved_lift (k : Block ℝ n) (step : BlockStep ℝ n) (b : Box Extended n) (alpha : ℝ) :
    k.lift.moved step.lift b (finite alpha) = (k.moved step b.toReal alpha).lift := by
  simp only [moved, lift, BlockStep.lift, mk.injEq, and_true]
  refine ⟨ofFn_lift ?_, ofFn_where_lift ?_ (get_lift _), ofFn_where_lift ?_ (get_lift _)⟩
  · simp
  · simp
  · simp

theorem multipliersMoved_lift (k : Block ℝ n) (step : BlockStep ℝ n) (b : Box Extended n)
    (alpha : ℝ) : k.lift.multipliersMoved step.lift b (finite alpha) =
      (k.multipliersMoved step b.toReal alpha).lift := by
  simp only [multipliersMoved, lift, BlockStep.lift, mk.injEq, true_and]
  refine ⟨ofFn_where_lift ?_ (get_lift _), ofFn_where_lift ?_ (get_lift _)⟩
  · simp
  · simp

/-- The distances at an interior point are not zero, so that the multiplier steps are real. -/
theorem completeStep_lift (inside : k.Interior b.toReal) (mu : ℝ) (dv : Vector ℝ n) :
    k.lift.completeStep b (finite mu) (Linear.lift dv) = (k.completeStep b.toReal mu dv).lift := by
  simp only [completeStep, lift, BlockStep.lift, BlockStep.mk.injEq, true_and]
  refine ⟨ofFn_where_lift ?_ fun _ => rfl, ofFn_where_lift ?_ fun _ => rfl⟩
  · intro i present
    have slack := (inside.slackLo.pos_of_present present).ne'
    simp only [get_lift, Extended.finite_div _ slack, Extended.finite_sub, Extended.finite_mul]
  · intro i present
    have slack := (inside.slackHi.pos_of_present present).ne'
    simp only [get_lift, Extended.finite_div _ slack, Extended.finite_sub, Extended.finite_mul,
      Extended.finite_add]

theorem multipliersClipped_lift {kappa : ℝ} (inside : k.Interior b.toReal) (mu : ℝ)
    (kappa_pos : 0 < kappa) : k.lift.multipliersClipped b (finite mu) (finite kappa) =
      (k.multipliersClipped b.toReal mu kappa).lift := by
  simp only [multipliersClipped, lift, mk.injEq, true_and]
  refine ⟨ofFn_where_lift ?_ (get_lift _), ofFn_where_lift ?_ (get_lift _)⟩
  · intro i present
    rw [get_lift, get_lift, clipped_lift mu _ kappa_pos (inside.slackLo.pos_of_present present)]
  · intro i present
    rw [get_lift, get_lift, clipped_lift mu _ kappa_pos (inside.slackHi.pos_of_present present)]

/-- An infinite factor does not clip. -/
theorem multipliersClipped_infinite {mu : ℝ} (inside : k.Interior b.toReal) (mu_pos : 0 < mu) :
    k.lift.multipliersClipped b (finite mu) (infinite true) = k.lift := by
  simp only [multipliersClipped, lift, mk.injEq, true_and]
  refine ⟨ext_get ?_, ext_get ?_⟩
  · intro i
    rw [Vector.get_ofFn, get_lift, get_lift, ite_eq_right_iff]
    intro present
    exact clipped_infinite mu_pos (inside.slackLo.pos_of_present present)
      (inside.multLo.pos_of_present present)
  · intro i
    rw [Vector.get_ofFn, get_lift, get_lift, ite_eq_right_iff]
    intro present
    exact clipped_infinite mu_pos (inside.slackHi.pos_of_present present)
      (inside.multHi.pos_of_present present)

/-- Without bounds the multiplier steps do not look at the barrier parameter. -/
theorem completeStep_of_absent (absent : b.Absent) (k : Block Extended n) (mu mu' : Extended)
    (dv : Vector Extended n) : k.completeStep b mu dv = k.completeStep b mu' dv := by
  simp only [completeStep, absent.lower, absent.upper, Bool.false_eq_true, if_false]

/-- Without bounds there is nothing to clip. -/
theorem multipliersClipped_of_absent (absent : b.Absent) (k : Block Extended n)
    (mu kappa : Extended) : k.multipliersClipped b mu kappa = k := by
  rw [multipliersClipped, ofFn_where_absent absent.lower, ofFn_where_absent absent.upper]

end Block

def Iterate.lift (it : Iterate ℝ d) : Iterate Extended d where
  x := it.x.lift
  s := it.s.lift
  yc := Linear.lift it.yc
  yd := Linear.lift it.yd

def Direction.lift (dir : Direction ℝ d) : Direction Extended d where
  x := dir.x.lift
  s := dir.s.lift
  dyc := Linear.lift dir.dyc
  dyd := Linear.lift dir.dyd

namespace Iterate

variable {it : Iterate ℝ d} {b : Bounds Extended d}

theorem maxPrimalStep_lift (it : Iterate ℝ d) (dir : Direction ℝ d) (b : Bounds Extended d)
    (tau : ℝ) : it.lift.maxPrimalStep dir.lift b (finite tau) =
      finite (it.maxPrimalStep dir b.toReal tau) := by
  simp only [maxPrimalStep, lift, Block.lift, Direction.lift, BlockStep.lift, Bounds.toReal,
    Box.hasLower_toReal, Box.hasUpper_toReal, Extended.one_eq, Extended.finite_neg,
    fractionToBoundary_lift]

theorem maxDualStep_lift (it : Iterate ℝ d) (dir : Direction ℝ d) (b : Bounds Extended d)
    (tau : ℝ) : it.lift.maxDualStep dir.lift b (finite tau) =
      finite (it.maxDualStep dir b.toReal tau) := by
  simp only [maxDualStep, lift, Block.lift, Direction.lift, BlockStep.lift, Bounds.toReal,
    Box.hasLower_toReal, Box.hasUpper_toReal, Extended.one_eq, fractionToBoundary_lift]

theorem trial_lift (it : Iterate ℝ d) (dir : Direction ℝ d) (b : Bounds Extended d) (alpha : ℝ) :
    it.lift.trial dir.lift b (finite alpha) = (it.trial dir b.toReal alpha).lift := by
  simp only [trial, lift, Direction.lift, Block.moved_lift, Bounds.toReal]

theorem takeBoundStep_lift (it : Iterate ℝ d) (dir : Direction ℝ d) (b : Bounds Extended d)
    (alpha : ℝ) : it.lift.takeBoundStep dir.lift b (finite alpha) =
      (it.takeBoundStep dir b.toReal alpha).lift := by
  simp only [takeBoundStep, lift, Direction.lift, Block.multipliersMoved_lift, Bounds.toReal]

theorem takeConstraintStep_lift (it : Iterate ℝ d) (dir : Direction ℝ d) (alpha : ℝ) :
    it.lift.takeConstraintStep dir.lift (finite alpha) =
      (it.takeConstraintStep dir alpha).lift := by
  simp only [takeConstraintStep, lift, Direction.lift, mk.injEq, true_and]
  refine ⟨ext_get ?_, ext_get ?_⟩
  · simp
  · simp

end Iterate

def Evaluation.lift (e : Evaluation ℝ d) : Evaluation Extended d where
  f := finite e.f
  eq := Linear.lift e.eq
  ineq := Linear.lift e.ineq
  grad := Linear.lift e.grad
  jacEq := e.jacEq.lift
  jacIneq := e.jacIneq.lift

theorem Evaluation.lagrangianGradient_lift (e : Evaluation ℝ d) (yc : Vector ℝ d.mEq)
    (yd : Vector ℝ d.mIneq) : e.lift.lagrangianGradient (Linear.lift yc) (Linear.lift yd) =
      Linear.lift (e.lagrangianGradient yc yd) := by
  rw [lagrangianGradient, lift, Dense.addTransposeProduct_lift, Dense.addTransposeProduct_lift]
  rfl

theorem complementarity_lift (it : Iterate ℝ d) (b : Bounds Extended d) (mu : ℝ) :
    complementarity it.lift b (finite mu) = finite (complementarity it b.toReal mu) := by
  simp only [complementarity, Iterate.lift, Block.lift, Bounds.toReal, Box.hasLower_toReal,
    Box.hasUpper_toReal, maskedComplementarity_lift, Extended.maxNum_finite, maxNum_real]

end SmoothOpt
