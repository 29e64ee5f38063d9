import Mathlib
import SmoothOpt.Proofs.Penalty.View
import SmoothOpt.Proofs.Problem.Functions
import SmoothOpt.Proofs.Problem.Ordering

/-!
The errors of the outer loop vanish exactly at first-order points.

The penalty vector measures feasibility, and `z - P(z - g)` with the projection `P` into the bounds
measures stationarity. Entry by entry the latter vanishes when `z` is within its bounds and `g` is a
difference of two multipliers that are complementary to them. At a feasible point the estimate
`λ + ρ p` is `λ`, so that the multipliers of the general constraints are those of the view.

The projection of a pair of crossed bounds is the upper one. There both errors can vanish outside
the bounds, which happens when coinciding bounds are moved towards each other.
-/
namespace SmoothOpt

open Scalar Linear

/-- The value respects those bounds that are present. -/
structure Within (lo hi : Bound ℝ) (z : ℝ) : Prop where
  lower : lo.present = true → lo.value ≤ z
  upper : hi.present = true → z ≤ hi.value

/-- Multipliers of the two bounds of a value: not negative, zero at an absent bound, complementary
to the distance from a present one. -/
structure BoundMultipliers (lo hi : Bound ℝ) (z l u : ℝ) : Prop where
  lower_nonneg : 0 ≤ l
  upper_nonneg : 0 ≤ u
  lower_absent : lo.present = false → l = 0
  upper_absent : hi.present = false → u = 0
  lower_complementary : lo.present = true → l * (z - lo.value) = 0
  upper_complementary : hi.present = true → u * (hi.value - z) = 0

def Box.Contains {n : Nat} (b : Box ℝ n) (v : Vector ℝ n) : Prop :=
  ∀ i, Within (b.lower.get i) (b.upper.get i) (v.get i)

def Box.Multipliers {n : Nat} (b : Box ℝ n) (v l u : Vector ℝ n) : Prop :=
  ∀ i, BoundMultipliers (b.lower.get i) (b.upper.get i) (v.get i) (l.get i) (u.get i)

namespace Penalty

section Clamp

variable {lo hi : Bound ℝ} {z g : ℝ}

theorem le_clampTo_iff {t v : ℝ} : t ≤ clampTo lo hi v ↔
    (t ≤ v ∨ lo.present = true ∧ t ≤ lo.value) ∧ (hi.present = true → t ≤ hi.value) := by
  obtain ⟨lo, has_lo⟩ := lo
  obtain ⟨hi, has_hi⟩ := hi
  cases has_lo <;> cases has_hi <;> simp [clampTo]

theorem clampTo_le_iff {t v : ℝ} : clampTo lo hi v ≤ t ↔
    (v ≤ t ∧ (lo.present = true → lo.value ≤ t)) ∨ (hi.present = true ∧ hi.value ≤ t) := by
  obtain ⟨lo, has_lo⟩ := lo
  obtain ⟨hi, has_hi⟩ := hi
  cases has_lo <;> cases has_hi <;> simp [clampTo]

/-- The projected value is within bounds that are not crossed. -/
theorem clampTo_within (ordered : lo.present = true → hi.present = true → lo.value ≤ hi.value)
    (v : ℝ) : Within lo hi (clampTo lo hi v) := by
  constructor
  · intro lower
    exact le_clampTo_iff.mpr ⟨.inr ⟨lower, le_rfl⟩, ordered lower⟩
  · intro upper
    exact clampTo_le_iff.mpr (.inr ⟨upper, le_rfl⟩)

/-- A slope with complementary multipliers does not move the projection. -/
theorem clampTo_of_multipliers (inside : Within lo hi z) {l u : ℝ}
    (multipliers : BoundMultipliers lo hi z l u) : clampTo lo hi (z - (l - u)) = z := by
  have l_nonneg := multipliers.lower_nonneg
  have u_nonneg := multipliers.upper_nonneg
  apply le_antisymm
  · rw [clampTo_le_iff]
    cases has : hi.present with
    | false =>
      rw [multipliers.upper_absent has]
      exact .inl ⟨by linarith, inside.lower⟩
    | true =>
      obtain none | met := mul_eq_zero.mp (multipliers.upper_complementary has)
      · rw [none]
        exact .inl ⟨by linarith, inside.lower⟩
      · exact .inr ⟨rfl, by linarith⟩
  · rw [le_clampTo_iff]
    refine ⟨?_, inside.upper⟩
    cases has : lo.present with
    | false =>
      rw [multipliers.lower_absent has]
      exact .inl (by linarith)
    | true =>
      obtain none | met := mul_eq_zero.mp (multipliers.lower_complementary has)
      · rw [none]
        exact .inl (by linarith)
      · exact .inr ⟨rfl, by linarith⟩

/-- Where the projection is not moved, the positive and the negative part of the slope are
multipliers. -/
theorem multipliers_of_clampTo (inside : Within lo hi z) (fixed : clampTo lo hi (z - g) = z) :
    BoundMultipliers lo hi z (max g 0) (max (-g) 0) := by
  obtain ⟨raised, -⟩ := le_clampTo_iff.mp fixed.ge
  have lowered := clampTo_le_iff.mp fixed.le
  refine ⟨le_max_right _ _, le_max_right _ _, ?_, ?_, ?_, ?_⟩
  · intro absent
    obtain le | ⟨present, -⟩ := raised
    · exact max_eq_right (by linarith)
    · rw [absent] at present
      cases present
  · intro absent
    obtain ⟨le, -⟩ | ⟨present, -⟩ := lowered
    · exact max_eq_right (by linarith)
    · rw [absent] at present
      cases present
  · intro present
    obtain le | ⟨-, met⟩ := raised
    · rw [max_eq_right (by linarith), zero_mul]
    · rw [le_antisymm met (inside.lower present), sub_self, mul_zero]
  · intro present
    obtain ⟨le, -⟩ | ⟨-, met⟩ := lowered
    · rw [max_eq_right (by linarith), zero_mul]
    · rw [le_antisymm met (inside.upper present), sub_self, mul_zero]

/-- The projected slope vanishes at a value within its bounds whose slope has multipliers. -/
theorem projected_eq_zero_iff
    (ordered : lo.present = true → hi.present = true → lo.value ≤ hi.value) :
    z - clampTo lo hi (z - g) = 0 ↔
      Within lo hi z ∧ ∃ l u, BoundMultipliers lo hi z l u ∧ g = l - u := by
  constructor
  · intro vanishes
    have fixed : clampTo lo hi (z - g) = z := (sub_eq_zero.mp vanishes).symm
    have inside := clampTo_within ordered (z - g)
    rw [fixed] at inside
    refine ⟨inside, _, _, multipliers_of_clampTo inside fixed, ?_⟩
    exact (max_zero_sub_max_neg_zero_eq_self g).symm
  · rintro ⟨inside, l, u, multipliers, rfl⟩
    rw [clampTo_of_multipliers inside multipliers, sub_self]

/-- A slope moves a value within its bounds by no more than its magnitude. -/
theorem abs_projected_le (inside : Within lo hi z) : |z - clampTo lo hi (z - g)| ≤ |g| := by
  have upward := le_abs_self g
  have downward := neg_abs_le g
  have nonneg := abs_nonneg g
  have below : z - |g| ≤ clampTo lo hi (z - g) := by
    refine le_clampTo_iff.mpr ⟨.inl (by linarith), ?_⟩
    intro upper
    have high := inside.upper upper
    linarith
  have above : clampTo lo hi (z - g) ≤ z + |g| := by
    refine clampTo_le_iff.mpr (.inl ⟨by linarith, ?_⟩)
    intro lower
    have low := inside.lower lower
    linarith
  rw [abs_le]
  constructor <;> linarith

end Clamp

section Points

variable {σ : Type} {d : Dims} {p : Problem ℝ σ d} {b : Bounds ℝ d} {e : Evaluation ℝ d}
  {v : View ℝ d} {z : Vector ℝ (d.n + d.mIneq)}

/-- First-order conditions at `(x, s)`, with the values `e` there and multipliers `yc` and `yd` of
the general constraints: the point is feasible, and the gradient of the Lagrangian in variables and
slacks is balanced by multipliers of the bounds. -/
structure KktPoint (b : Bounds ℝ d) (e : Evaluation ℝ d) (x : Vector ℝ d.n) (s : Vector ℝ d.mIneq)
    (yc : Vector ℝ d.mEq) (yd : Vector ℝ d.mIneq) : Prop where
  equalities : ∀ r, e.eq.get r = 0
  inequalities : ∀ j, e.ineq.get j = s.get j
  boundsX : b.x.Contains x
  boundsS : b.s.Contains s
  stationaryX : ∃ zl zu, b.x.Multipliers x zl zu ∧
    ∀ i, e.grad.get i + ∑ r, e.jacEq.entry r i * yc.get r + ∑ j, e.jacIneq.entry j i * yd.get j =
      zl.get i - zu.get i
  stationaryS : ∃ vl vu, b.s.Multipliers s vl vu ∧ ∀ j, -yd.get j = vl.get j - vu.get j

/-- The view has the bounds of the problem: first those of the variables, then of the slacks. -/
structure View.BoundedBy (v : View ℝ d) (b : Bounds ℝ d) : Prop where
  lower : v.box.lower = b.x.lower ++ b.s.lower
  upper : v.box.upper = b.x.upper ++ b.s.upper

/-- A view is created with the validated bounds of a problem of valid sizes. -/
theorem View.create_ok {α : Type} [Scalar α] {p : Problem α σ d} {v : View α d}
    {inner : InteriorSettings α} {w w' : σ} (created : (View.create p inner).run w = (.ok v, w')) :
    (Dims.validate d : Except (ProblemFault α) Unit) = .ok () ∧
      ∃ b, (Bounds.ofProblem p (.ofSettings inner)).run w = (.ok b, w') ∧ v = .ofBounds b := by
  rcases queried : (Bounds.ofProblem p (.ofSettings inner)).run w with ⟨fault | b, w₁⟩
  · simp only [View.create, StateT.run] at created queried
    split at created
    · cases created
    · simp only [queried, Except.map] at created
      cases created
  · simp only [View.create, StateT.run] at created queried
    split at created
    · cases created
    · rename_i valid
      simp only [queried, Except.map] at created
      cases created
      exact ⟨valid, b, rfl, rfl⟩

/-- Valid sizes and accepted bounds make a view. -/
theorem View.create_of_bounds {α : Type} [Scalar α] {p : Problem α σ d} {inner : InteriorSettings α}
    {b : Bounds α d} {w w' : σ}
    (valid : (Dims.validate d : Except (ProblemFault α) Unit) = .ok ())
    (queried : (Bounds.ofProblem p (.ofSettings inner)).run w = (.ok b, w')) :
    (View.create p inner).run w = (.ok (.ofBounds b), w') := by
  simp only [StateT.run] at queried
  simp only [View.create, StateT.run, valid, queried]
  rfl

theorem infNorm_eq_zero_iff {n : Nat} (u : Vector ℝ n) :
    infNorm u.toList = 0 ↔ ∀ i, u.get i = 0 := by
  have nonneg := ((infNorm_le_iff u _).mp le_rfl).1
  rw [← nonneg.ge_iff_eq', infNorm_le_iff]
  simp

/-- Along a vector, the projected slope vanishes where all entries are within their bounds and the
slope has multipliers. -/
theorem projected_vanishes_iff {n : Nat} {box : Box ℝ n} (ordered : box.Ordered) (u : Vector ℝ n)
    (g : Fin n → ℝ) :
    (∀ i, u.get i - clampTo (box.lower.get i) (box.upper.get i) (u.get i - g i) = 0) ↔
      box.Contains u ∧ ∃ l h, box.Multipliers u l h ∧ ∀ i, g i = l.get i - h.get i := by
  constructor
  · intro vanishes
    have entry : ∀ i, _ := fun i => (projected_eq_zero_iff (ordered i)).mp (vanishes i)
    choose l h multipliers balanced using fun i => (entry i).2
    refine ⟨fun i => (entry i).1, Vector.ofFn l, Vector.ofFn h, ?_, ?_⟩
    · intro i
      rw [Vector.get_ofFn, Vector.get_ofFn]
      exact multipliers i
    · intro i
      rw [Vector.get_ofFn, Vector.get_ofFn]
      exact balanced i
  · rintro ⟨inside, l, h, multipliers, balanced⟩ i
    exact (projected_eq_zero_iff (ordered i)).mpr ⟨inside i, _, _, multipliers i, balanced i⟩

section Entries

variable (bounded : v.BoundedBy b) (g : Vector ℝ (d.n + d.mIneq))

include bounded

theorem projected_variable (i : Fin d.n) : (v.projectedGradient z g).get (i.castAdd d.mIneq) =
    (variablePart z).get i - clampTo (b.x.lower.get i) (b.x.upper.get i)
      ((variablePart z).get i - g.get (i.castAdd d.mIneq)) := by
  simp only [View.projectedGradient, Vector.get_ofFn, bounded.lower, bounded.upper,
    get_append_castAdd, variablePart, get_firstPart]

theorem projected_slack (j : Fin d.mIneq) : (v.projectedGradient z g).get (j.natAdd d.n) =
    (slackPart z).get j - clampTo (b.s.lower.get j) (b.s.upper.get j)
      ((slackPart z).get j - g.get (j.natAdd d.n)) := by
  simp only [View.projectedGradient, Vector.get_ofFn, bounded.lower, bounded.upper,
    get_append_natAdd, slackPart, get_lastPart]

/-- Inside the bounds no entry of the projected gradient exceeds that of the gradient. -/
theorem abs_projectedGradient_le (insideX : b.x.Contains (variablePart z))
    (insideS : b.s.Contains (slackPart z)) (a : Fin (d.n + d.mIneq)) :
    |(v.projectedGradient z g).get a| ≤ |g.get a| := by
  refine Fin.addCases (fun i => ?_) (fun j => ?_) a
  · rw [projected_variable bounded]
    exact abs_projected_le (insideX i)
  · rw [projected_slack bounded]
    exact abs_projected_le (insideS j)

theorem projectedGradient_vanishes_iff (ordered : b.Ordered) :
    (∀ a, (v.projectedGradient z g).get a = 0) ↔
      (b.x.Contains (variablePart z) ∧ ∃ zl zu, b.x.Multipliers (variablePart z) zl zu ∧
        ∀ i, g.get (i.castAdd d.mIneq) = zl.get i - zu.get i) ∧
      (b.s.Contains (slackPart z) ∧ ∃ vl vu, b.s.Multipliers (slackPart z) vl vu ∧
        ∀ j, g.get (j.natAdd d.n) = vl.get j - vu.get j) := by
  rw [← projected_vanishes_iff ordered.x, ← projected_vanishes_iff ordered.s]
  simp only [← projected_variable bounded, ← projected_slack bounded]
  constructor
  · intro vanishes
    exact ⟨fun i => vanishes _, fun j => vanishes _⟩
  · rintro ⟨inX, inS⟩ a
    exact Fin.addCases inX inS a

end Entries

theorem penaltyVector_vanishes_iff : (∀ k, (penaltyVector e z).get k = 0) ↔
    (∀ r, e.eq.get r = 0) ∧ ∀ j, e.ineq.get j = (slackPart z).get j := by
  constructor
  · intro vanishes
    refine ⟨fun r => ?_, fun j => ?_⟩
    · have entry := vanishes (r.castAdd d.mIneq)
      rwa [penaltyVector, get_append_castAdd] at entry
    · have entry := vanishes (j.natAdd d.mEq)
      rw [penaltyVector, get_append_natAdd, get_zipWith] at entry
      exact sub_eq_zero.mp entry
  · rintro ⟨equalities, inequalities⟩ k
    refine Fin.addCases (fun r => ?_) (fun j => ?_) k
    · rw [penaltyVector, get_append_castAdd, equalities]
    · rw [penaltyVector, get_append_natAdd, get_zipWith, inequalities, sub_self]

/-- At a feasible point the multiplier estimate is the multiplier of the view. -/
theorem multiplierEstimate_of_feasible {penalty : Vector ℝ (entryCount d)}
    (feasible : ∀ k, penalty.get k = 0) : v.multiplierEstimate penalty = v.lambda := by
  apply ext_get
  intro k
  rw [View.multiplierEstimate, get_zipWith, feasible, mul_zero, add_zero]

/-- Bounds that contain a point are not crossed. -/
theorem KktPoint.ordered {x : Vector ℝ d.n} {s : Vector ℝ d.mIneq} {yc : Vector ℝ d.mEq}
    {yd : Vector ℝ d.mIneq} (h : KktPoint b e x s yc yd) : b.Ordered := by
  constructor
  · intro i lower upper
    exact ((h.boundsX i).lower lower).trans ((h.boundsX i).upper upper)
  · intro j lower upper
    exact ((h.boundsS j).lower lower).trans ((h.boundsS j).upper upper)

/-- Unless bounds are crossed, both errors vanish exactly at the first-order points of the problem,
with the multipliers of the view. -/
theorem errors_vanish_iff (bounded : v.BoundedBy b) (ordered : b.Ordered) :
    (infNorm (penaltyVector e z).toList = 0 ∧
      infNorm (v.projectedGradient z (v.meritGradient e (penaltyVector e z))).toList = 0) ↔
      KktPoint b e (variablePart z) (slackPart z) (equalityPart v.lambda)
        (inequalityPart v.lambda) := by
  rw [infNorm_eq_zero_iff, infNorm_eq_zero_iff, projectedGradient_vanishes_iff bounded _ ordered]
  have slopes : (∀ k, (penaltyVector e z).get k = 0) →
      (∀ i, (v.meritGradient e (penaltyVector e z)).get (i.castAdd d.mIneq) = e.grad.get i
        + ∑ r, e.jacEq.entry r i * (equalityPart v.lambda).get r
        + ∑ j, e.jacIneq.entry j i * (inequalityPart v.lambda).get j) ∧
      ∀ j, (v.meritGradient e (penaltyVector e z)).get (j.natAdd d.n) =
        -(inequalityPart v.lambda).get j := by
    intro feasible
    simp only [View.meritGradient, multiplierEstimate_of_feasible feasible, get_append_castAdd,
      get_append_natAdd, Evaluation.lagrangianGradient, Dense.get_addTransposeProduct,
      Vector.get_map, implies_true, and_self]
  constructor
  · rintro ⟨feasible, ⟨insideX, zl, zu, multX, balancedX⟩, insideS, vl, vu, multS, balancedS⟩
    obtain ⟨slopeX, slopeS⟩ := slopes feasible
    obtain ⟨equalities, inequalities⟩ := penaltyVector_vanishes_iff.mp feasible
    refine ⟨equalities, inequalities, insideX, insideS, ⟨zl, zu, multX, ?_⟩, vl, vu, multS, ?_⟩
    · intro i
      rw [← slopeX, balancedX]
    · intro j
      rw [← slopeS, balancedS]
  · rintro ⟨equalities, inequalities, insideX, insideS, ⟨zl, zu, multX, balancedX⟩, vl, vu, multS,
      balancedS⟩
    have feasible := penaltyVector_vanishes_iff.mpr ⟨equalities, inequalities⟩
    obtain ⟨slopeX, slopeS⟩ := slopes feasible
    refine ⟨feasible, ⟨insideX, zl, zu, multX, ?_⟩, insideS, vl, vu, multS, ?_⟩
    · intro i
      rw [slopeX, balancedX]
    · intro j
      rw [slopeS, balancedS]

/-- Wherever the callbacks succeed, a view of a problem has residuals. The first-order points of the
problem, with the multipliers of the view, are the points where both norms vanish and the bounds are
not crossed, which they are not when coinciding bounds are moved apart. Inside the bounds the
projected gradient is entrywise no larger than the gradient. -/
theorem residuals_vanish_at_kkt {inner : InteriorSettings ℝ} {w w' : σ} {v₀ : View ℝ d}
    (created : (View.create p inner).run w = (.ok v₀, w')) :
    ∃ b, (Bounds.ofProblem p (.ofSettings inner)).run w = (.ok b, w') ∧
      (0 ≤ inner.fixedVarPerturb → b.Ordered) ∧
      ∀ start lambda rho z (o o' : σ) e,
        (Evaluation.all p (variablePart z)).outcome (.blank, o) = (.ok (), (e, o')) →
        e.AnswersAt p (variablePart z) ∧ ∃ penalty gradient,
          ((⟨v₀.box, start, lambda, rho⟩ : View ℝ d).residuals p z).run o =
            (some (penalty, gradient), o') ∧
          (b.Ordered ∧ infNorm penalty.toList = 0 ∧ infNorm gradient.toList = 0 ↔
            KktPoint b e (variablePart z) (slackPart z) (equalityPart lambda)
              (inequalityPart lambda)) ∧
          (b.x.Contains (variablePart z) → b.s.Contains (slackPart z) → ∀ a, |gradient.get a| ≤
            |((⟨v₀.box, start, lambda, rho⟩ : View ℝ d).meritGradient e penalty).get a|) := by
  obtain ⟨-, b, queried, rfl⟩ := View.create_ok created
  refine ⟨b, queried, fun perturb => Bounds.ofProblem_ordered perturb queried, ?_⟩
  intro start lambda rho z o o' e evaluated
  have bounded : View.BoundedBy ⟨(View.ofBounds b).box, start, lambda, rho⟩ b := ⟨rfl, rfl⟩
  refine ⟨Evaluation.all_ok evaluated, _, _, residuals_of_outcome evaluated, ?_,
    abs_projectedGradient_le bounded _⟩
  constructor
  · rintro ⟨ordered, vanish⟩
    exact (errors_vanish_iff bounded ordered).mp vanish
  · intro kkt
    exact ⟨kkt.ordered, (errors_vanish_iff bounded kkt.ordered).mpr kkt⟩

end Points

namespace Segment

abbrev line : Dims := ⟨1, 0, 0⟩

/-- Minimize `x` over `lo ≤ x ≤ hi`. -/
noncomputable def problem (lo hi : ℝ) : Problem ℝ Unit line where
  variableBounds := pure (.good (single lo, single hi))
  inequalityBounds := pure (.good (noEntries, noEntries))
  start := pure (.good (single 0))
  objective x _ := pure (.good (x.get ⟨0, Nat.one_pos⟩))
  gradient _ _ := pure (.good (single 1))
  equalities _ _ := pure (.good noEntries)
  inequalities _ _ := pure (.good noEntries)
  equalityJacobian _ _ := pure (.good noEntries)
  inequalityJacobian _ _ := pure (.good noEntries)
  providesHessian := false
  hessian _ _ _ _ _ := pure (.silent false)

/-- Coinciding bounds are moved by `perturb`. -/
noncomputable def settings (perturb : ℝ) : InteriorSettings ℝ :=
  { (InteriorSettings.default : InteriorSettings ℝ) with
    fixedVar := .relax
    fixedVarPerturb := perturb }

noncomputable def functions : Functions ℝ line where
  objective x := x.get ⟨0, Nat.one_pos⟩
  equalities _ := noEntries
  inequalities _ := noEntries
  gradient _ := single 1
  equalityJacobian _ := noEntries
  inequalityJacobian _ := noEntries

theorem evaluated (lo hi : ℝ) (x : Vector ℝ line.n) :
    (Evaluation.all (problem lo hi) x).outcome (.blank, ()) =
      (.ok (), (functions.evaluation x, ())) := by
  have succeeds : (problem lo hi).SucceedsAt x := by
    constructor <;> intro newX w <;> rfl
  have computes : (problem lo hi).Computes functions := by
    constructor <;> intro x newX w _ <;> rfl
  obtain ⟨⟨e, w⟩, ran⟩ := Evaluation.all_succeeds succeeds (.blank, ())
  obtain rfl := (Evaluation.all_ok ran).eq_evaluation computes
  exact ran

noncomputable def bounds (lo hi perturb : ℝ) : Bounds ℝ line :=
  let rule := Bounds.FixedRule.ofSettings (settings perturb)
  { x := Bounds.settledBox rule (single lo) (single hi)
    s := Bounds.settledBox rule noEntries noEntries
    relaxedFixed := Bounds.coinciding rule (single lo) (single hi) +
      Bounds.coinciding (n := 0) rule noEntries noEntries }

theorem queried {lo hi : ℝ} (ordered : lo ≤ hi) (perturb : ℝ) :
    (Bounds.ofProblem (problem lo hi) (.ofSettings (settings perturb))).run () =
      (.ok (bounds lo hi perturb), ()) := by
  have faultless : Bounds.firstFault (n := 1)
      (Bounds.variableFault (.ofSettings (settings perturb))) #v[lo] #v[hi] = none := by
    simp [Bounds.firstFault, List.finRange_succ, Bounds.variableFault, Vector.get, ordered,
      Bounds.FixedRule.ofSettings, settings]
  have faultless_else : Bounds.firstFault (n := 0)
      (Bounds.inequalityFault (.ofSettings (settings perturb))) #v[] #v[] = none := by
    simp [Bounds.firstFault]
  have raw : Bounds.ofRaw (d := line) (.ofSettings (settings perturb)) #v[lo] #v[hi] #v[] #v[] =
      .ok (bounds lo hi perturb) := by
    simp only [Bounds.ofRaw, faultless, faultless_else]
    rfl
  rw [← raw]
  rfl

theorem created {lo hi : ℝ} (ordered : lo ≤ hi) (perturb : ℝ) :
    (View.create (problem lo hi) (settings perturb)).run () =
      (.ok (.ofBounds (bounds lo hi perturb)), ()) :=
  View.create_of_bounds rfl (queried ordered perturb)

theorem lower_eq (lo hi perturb : ℝ) : (bounds lo hi perturb).x.lower.get (0 : Fin 1) =
    Bound.of (Bounds.FixedRule.settle (.ofSettings (settings perturb)) lo hi).1 := by
  simp [bounds, Bounds.settledBox, Vector.get]

theorem upper_eq (lo hi perturb : ℝ) : (bounds lo hi perturb).x.upper.get (0 : Fin 1) =
    Bound.of (Bounds.FixedRule.settle (.ofSettings (settings perturb)) lo hi).2 := by
  simp [bounds, Bounds.settledBox, Vector.get]

/-- Bounds that coincide at zero and are moved by `-1` are crossed. -/
theorem crossed : (bounds 0 0 (-1)).x.lower.get (0 : Fin 1) = ⟨1, true⟩ ∧
    (bounds 0 0 (-1)).x.upper.get (0 : Fin 1) = ⟨-1, true⟩ := by
  have earnest : isFiniteBound (0 : ℝ) = true ∧ isFiniteBound (1 : ℝ) = true ∧
      isFiniteBound (-1 : ℝ) = true := by
    norm_num [isFiniteBound]
  have settled : Bounds.FixedRule.settle (.ofSettings (settings (-1))) (0 : ℝ) 0 = (1, -1) := by
    norm_num [Bounds.FixedRule.settle, Bounds.FixedRule.coincide, Bounds.FixedRule.ofSettings,
      settings, InteriorSettings.default, earnest]
  rw [lower_eq, upper_eq, settled]
  simp [Bound.of, earnest]

/-- Bounds at zero and one do not coincide. -/
theorem kept (perturb : ℝ) : (bounds 0 1 perturb).x.lower.get (0 : Fin 1) = ⟨0, true⟩ ∧
    (bounds 0 1 perturb).x.upper.get (0 : Fin 1) = ⟨1, true⟩ := by
  have earnest : isFiniteBound (0 : ℝ) = true ∧ isFiniteBound (1 : ℝ) = true := by
    norm_num [isFiniteBound]
  have settled : Bounds.FixedRule.settle (.ofSettings (settings perturb)) (0 : ℝ) 1 = (0, 1) := by
    norm_num [Bounds.FixedRule.settle, Bounds.FixedRule.coincide, Bounds.FixedRule.ofSettings,
      settings, InteriorSettings.default, earnest]
  rw [lower_eq, upper_eq, settled]
  simp [Bound.of, earnest]

noncomputable def point (x : ℝ) : Vector ℝ (line.n + line.mIneq) := #v[x]

theorem get_point (x : ℝ) : (variablePart (point x)).get (0 : Fin 1) = x := by
  rw [variablePart, get_firstPart]
  rfl

/-- The slope is that of the objective. -/
theorem slope_eq (v : View ℝ line) (x : Vector ℝ line.n) (penalty : Vector ℝ (entryCount line)) :
    (v.meritGradient (functions.evaluation x) penalty).get ((0 : Fin 1).castAdd 0) = 1 := by
  rw [get_meritGradient, Finset.sum_eq_zero fun k _ => k.elim0, add_zero, Fin.append_left]
  rfl

end Segment

/-- The lower end of the segment is a first-order point, with a unit multiplier of its bound, and
both norms vanish there. -/
theorem segment_end_vanishes : ∃ v b e penalty gradient,
    (View.create (Segment.problem 0 1) (Segment.settings 1)).run () = (.ok v, ()) ∧
    0 ≤ (Segment.settings 1).fixedVarPerturb ∧
    (v.residuals (Segment.problem 0 1) (Segment.point 0)).run () = (some (penalty, gradient), ()) ∧
    KktPoint b e (variablePart (Segment.point 0)) (slackPart (Segment.point 0))
      (equalityPart v.lambda) (inequalityPart v.lambda) ∧
    infNorm penalty.toList = 0 ∧ infNorm gradient.toList = 0 := by
  have created := Segment.created (zero_le_one : (0 : ℝ) ≤ 1) 1
  obtain ⟨b, queried, -, points⟩ := residuals_vanish_at_kkt created
  obtain rfl : Segment.bounds 0 1 1 = b := by
    rw [Segment.queried zero_le_one] at queried
    exact Except.ok.inj (congrArg Prod.fst queried)
  obtain ⟨-, penalty, gradient, ran, iff, -⟩ := points _ _ _ (Segment.point 0) _ _ _
    (Segment.evaluated 0 1 _)
  obtain ⟨lower, upper⟩ := Segment.kept 1
  have kkt : KktPoint (Segment.bounds 0 1 1)
      (Segment.functions.evaluation (variablePart (Segment.point 0)))
      (variablePart (Segment.point 0)) (slackPart (Segment.point 0))
      (equalityPart (View.ofBounds (Segment.bounds 0 1 1)).lambda)
      (inequalityPart (View.ofBounds (Segment.bounds 0 1 1)).lambda) := by
    refine ⟨fun r => r.elim0, fun j => j.elim0, ?_, fun j => j.elim0, ⟨#v[1], #v[0], ?_, ?_⟩,
      #v[], #v[], fun j => j.elim0, fun j => j.elim0⟩
    · intro i
      rw [Subsingleton.elim i (0 : Fin 1), lower, upper, Segment.get_point]
      exact ⟨fun _ => le_rfl, fun _ => zero_le_one⟩
    · intro i
      rw [Subsingleton.elim i (0 : Fin 1), lower, upper, Segment.get_point]
      constructor <;> norm_num [Vector.get]
    · intro i
      rw [Subsingleton.elim i (0 : Fin 1), Finset.sum_eq_zero fun r _ => r.elim0,
        Finset.sum_eq_zero fun j _ => j.elim0]
      norm_num [Segment.functions, Functions.evaluation, Vector.get]
  exact ⟨_, _, _, penalty, gradient, created, zero_le_one, ran, kkt, (iff.mpr kkt).2⟩

/-- With crossed bounds both norms vanish at a point below the lower bound. -/
theorem crossed_bounds_vanish_outside : ∃ b v e penalty gradient,
    (Bounds.ofProblem (Segment.problem 0 0) (.ofSettings (Segment.settings (-1)))).run () =
      (.ok b, ()) ∧
    (View.create (Segment.problem 0 0) (Segment.settings (-1))).run () = (.ok v, ()) ∧
    (Evaluation.all (Segment.problem 0 0) (variablePart (Segment.point (-1)))).outcome
      (.blank, ()) = (.ok (), (e, ())) ∧
    (v.residuals (Segment.problem 0 0) (Segment.point (-1))).run () =
      (some (penalty, gradient), ()) ∧
    infNorm penalty.toList = 0 ∧ infNorm gradient.toList = 0 ∧
    ¬KktPoint b e (variablePart (Segment.point (-1))) (slackPart (Segment.point (-1)))
      (equalityPart v.lambda) (inequalityPart v.lambda) := by
  obtain ⟨lower, upper⟩ := Segment.crossed
  have evaluated := Segment.evaluated 0 0 (variablePart (Segment.point (-1)))
  refine ⟨_, _, _, _, _, Segment.queried le_rfl (-1), Segment.created le_rfl (-1), evaluated,
    residuals_of_outcome evaluated, ?_, ?_, ?_⟩
  · rw [infNorm_eq_zero_iff]
    intro k
    exact k.elim0
  · rw [infNorm_eq_zero_iff]
    have bounded : View.BoundedBy (.ofBounds (Segment.bounds 0 0 (-1))) (Segment.bounds 0 0 (-1)) :=
      ⟨rfl, rfl⟩
    refine Fin.addCases (fun i => ?_) fun j => j.elim0
    rw [projected_variable bounded, Subsingleton.elim i 0, lower, upper, Segment.slope_eq,
      Segment.get_point]
    norm_num [clampTo]
  · intro kkt
    have low := (kkt.boundsX (0 : Fin 1)).lower
    rw [lower, Segment.get_point] at low
    norm_num at low

end Penalty

end SmoothOpt
