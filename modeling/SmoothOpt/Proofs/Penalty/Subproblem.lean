import SmoothOpt.Proofs.Barrier.Absent
import SmoothOpt.Proofs.Barrier.Coherence
import SmoothOpt.Proofs.Penalty.Major
import SmoothOpt.Proofs.Penalty.Merit
import SmoothOpt.Proofs.Problem.Ordering

/-!
The engine of a subproblem.

A view tells its subproblem the values of present bounds and infinities for absent ones, and the
engine of the subproblem validates and settles them once more. Bounds that have been settled and do
not nearly coincide come through unchanged: the second pass sees the same bounds where one is
present, and none where there was none.
-/
namespace SmoothOpt

open Scalar Linear

/-- Present bounds are in earnest, not crossed, and do not nearly coincide. -/
structure Box.Apart {n : Nat} (rule : Bounds.FixedRule ℝ) (b : Box ℝ n) : Prop where
  lower : ∀ i, (b.lower.get i).present = true → isFiniteBound (b.lower.get i).value = true
  upper : ∀ i, (b.upper.get i).present = true → isFiniteBound (b.upper.get i).value = true
  uncrossed : b.Ordered
  apart : ∀ i, (b.lower.get i).present = true → (b.upper.get i).present = true →
    rule.coincide (b.lower.get i).value (b.upper.get i).value = false

/-- Without bounds nothing can go wrong. -/
theorem Box.Apart.of_free {n : Nat} (rule : Bounds.FixedRule ℝ) {b : Box ℝ n}
    (lower : ∀ i, (b.lower.get i).present = false)
    (upper : ∀ i, (b.upper.get i).present = false) : b.Apart rule where
  lower i present := by simp [lower i] at present
  upper i present := by simp [upper i] at present
  uncrossed i present := by simp [lower i] at present
  apart i present := by simp [lower i] at present

section Told

variable {n : Nat} {rule : Bounds.FixedRule ℝ} {b : Box ℝ n}

theorem isFiniteBound_infinity : isFiniteBound (infinity : ℝ) = false := by
  norm_num [isFiniteBound, infinity]

theorem isFiniteBound_neg_infinity : isFiniteBound (-infinity : ℝ) = false := by
  norm_num [isFiniteBound, infinity]

theorem abs_lt_of_isFiniteBound {v : ℝ} (finite : isFiniteBound v = true) : |v| < infinity := by
  simpa [isFiniteBound, infinity] using finite

/-- A told bound is present again when it was. -/
theorem Bound.told_of {b : Bound ℝ} {far : ℝ}
    (finite : b.present = true → isFiniteBound b.value = true)
    (absent : isFiniteBound far = false) : Bound.of (b.told far).value = b.told far := by
  obtain ⟨value, _ | _⟩ := b
  · simp [Bound.of, Bound.told, absent]
  · simpa [Bound.of, Bound.told] using finite rfl

variable (apart : b.Apart rule)

include apart

theorem Box.Apart.told_of_lower (i : Fin n) :
    Bound.of (b.told.lower.get i).value = b.told.lower.get i := by
  simp only [Box.told, Vector.get_map]
  exact Bound.told_of (apart.lower i) isFiniteBound_neg_infinity

theorem Box.Apart.told_of_upper (i : Fin n) :
    Bound.of (b.told.upper.get i).value = b.told.upper.get i := by
  simp only [Box.told, Vector.get_map]
  exact Bound.told_of (apart.upper i) isFiniteBound_infinity

theorem Box.Apart.told_uncrossed (i : Fin n) :
    (b.told.lower.get i).value ≤ (b.told.upper.get i).value := by
  have far : (0 : ℝ) ≤ infinity := by
    norm_num [infinity]
  have lower := apart.lower i
  have upper := apart.upper i
  have uncrossed := apart.uncrossed i
  simp only [Box.told, Bound.told, Vector.get_map]
  by_cases low : (b.lower.get i).present = true <;> by_cases high : (b.upper.get i).present = true
  · simpa [low, high] using uncrossed low high
  · have bounded := abs_lt.mp (abs_lt_of_isFiniteBound (lower low))
    simpa [low, high] using bounded.2.le
  · have bounded := abs_lt.mp (abs_lt_of_isFiniteBound (upper high))
    simpa [low, high] using bounded.1.le
  · have nonempty : -infinity ≤ (infinity : ℝ) := by linarith
    simpa [low, high] using nonempty

theorem Box.Apart.told_apart (i : Fin n) :
    rule.coincide (b.told.lower.get i).value (b.told.upper.get i).value = false := by
  simp only [Box.told, Bound.told, Vector.get_map]
  by_cases low : (b.lower.get i).present = true <;> by_cases high : (b.upper.get i).present = true
  · simpa [low, high] using apart.apart i low high
  · simp [Bounds.FixedRule.coincide, high, isFiniteBound_infinity]
  · simp [Bounds.FixedRule.coincide, low, isFiniteBound_neg_infinity]
  · simp [Bounds.FixedRule.coincide, low, isFiniteBound_neg_infinity]

/-- Validation finds no fault in what is told. -/
theorem Box.Apart.faultless : Bounds.firstFault (Bounds.variableFault rule)
    (b.told.lower.map (·.value)) (b.told.upper.map (·.value)) = none := by
  rw [Bounds.firstFault_eq_none_iff]
  intro i
  rw [Vector.get_map, Vector.get_map]
  exact Bounds.variableFault_eq_none_iff.mpr ⟨isUndefined_real _, isUndefined_real _,
    not_lt.mpr (apart.told_uncrossed i), fun _ => apart.told_apart i⟩

theorem Box.Apart.told_values_apart (i : Fin n) : rule.coincide
    ((b.told.lower.map (·.value)).get i) ((b.told.upper.map (·.value)).get i) = false := by
  rw [Vector.get_map, Vector.get_map]
  exact apart.told_apart i

/-- Settling what is told gives it back. -/
theorem Box.Apart.settled : Bounds.settledBox rule (b.told.lower.map (·.value))
    (b.told.upper.map (·.value)) = b.told := by
  rw [Bounds.settledBox_of_apart apart.told_values_apart]
  apply congrArg₂ Box.mk
  · apply ext_get
    intro i
    rw [Vector.get_map, Vector.get_map]
    exact apart.told_of_lower i
  · apply ext_get
    intro i
    rw [Vector.get_map, Vector.get_map]
    exact apart.told_of_upper i

theorem Box.Apart.coinciding_eq_zero : Bounds.coinciding rule (b.told.lower.map (·.value))
    (b.told.upper.map (·.value)) = 0 :=
  Bounds.coinciding_of_apart apart.told_values_apart

end Told

namespace Penalty

variable {σ : Type} {d : Dims} {v : View ℝ d}

/-- The bounds of a subproblem: those of the view, as it tells them. -/
noncomputable def View.bounds (v : View ℝ d) : Bounds ℝ (boxed d) :=
  ⟨v.box.told, ⟨#v[], #v[]⟩, 0⟩

/-- Validating a subproblem is validating what its view tells. -/
theorem View.run_ofProblem {α : Type} [Scalar α] (v : View α d) (p : Problem α σ d)
    (rule : Bounds.FixedRule α) (w : σ) : (Bounds.ofProblem (v.problem p) rule).run w =
      (Bounds.ofRaw (d := boxed d) rule (v.box.told.lower.map (·.value))
        (v.box.told.upper.map (·.value)) (Vector.replicate 0 (-infinity))
        (Vector.replicate 0 infinity), w) := by
  have asked : (Bounds.ofProblem (v.problem p) rule).run w =
      (Bounds.ofRaw (d := boxed d) rule
        (v.box.lower.map fun b => if b.present then b.value else -infinity)
        (v.box.upper.map fun b => if b.present then b.value else infinity)
        (Vector.replicate 0 (-infinity)) (Vector.replicate 0 infinity), w) := rfl
  have lower : (v.box.lower.map fun b => if b.present then b.value else -infinity) =
      v.box.told.lower.map (·.value) := by
    simp [Box.told, Bound.told, Vector.map_map]
  have upper : (v.box.upper.map fun b => if b.present then b.value else infinity) =
      v.box.told.upper.map (·.value) := by
    simp [Box.told, Bound.told, Vector.map_map]
  rw [asked, lower, upper]

theorem View.queried (p : Problem ℝ σ d) {rule : Bounds.FixedRule ℝ} (apart : v.box.Apart rule)
    (w : σ) : (Bounds.ofProblem (v.problem p) rule).run w = (.ok v.bounds, w) := by
  have empty :
      Bounds.settledBox rule (Vector.replicate 0 (-infinity)) (Vector.replicate 0 infinity) =
        ⟨#v[], #v[]⟩ := congrArg₂ Box.mk Vector.eq_empty Vector.eq_empty
  rw [v.run_ofProblem p rule w, Bounds.ofRaw, apart.faultless]
  simp only [Bounds.firstFault, List.finRange_zero, List.findSome?_nil]
  rw [apart.settled, apart.coinciding_eq_zero, empty]
  simp only [Bounds.coinciding, List.finRange_zero, List.countP_nil]
  rfl

noncomputable def View.engine (v : View ℝ d) (p : Problem ℝ σ d) (settings : InteriorSettings ℝ)
    (exact : Bool) (w : World ℝ σ) : Barrier.Engine ℝ σ (boxed d) :=
  ⟨⟨v.problem p, settings, v.bounds.relax settings.boundRelaxFactor⟩, .initial settings exact w⟩

/-- The engine has the bounds of the view, however they are moved. -/
theorem View.bounds_present (v : View ℝ d) (factor : ℝ) (i : Fin (d.n + d.mIneq)) :
    ((v.bounds.relax factor).x.lower.get i).present = (v.box.lower.get i).present ∧
      ((v.bounds.relax factor).x.upper.get i).present = (v.box.upper.get i).present := by
  unfold Bounds.relax
  split <;> simp [View.bounds, Box.told, Bound.told, Box.widened, Vector.get_map,
    Bound.moved_present]

/-- The subproblem of a view with settled bounds is solved by its engine. -/
theorem innerResult_of_apart [DenseSolver ℝ] {c : Setup ℝ σ d} {s : State ℝ σ d}
    (apart : s.view.box.Apart (.ofSettings c.settings.inner)) (some : d.n ≠ 0) {exact : Bool}
    (chosen : Barrier.Engine.useExact (s.view.problem c.problem) c.settings.inner = .ok exact) :
    ∃ w, innerResult c s = Option.some
      ((s.view.engine c.problem c.settings.inner exact w).run Observer.silent ()).1 := by
  have valid : (Dims.validate (boxed d) : Except (ProblemFault ℝ) Unit) = .ok () := by
    simp [Dims.validate, some]
  obtain ⟨w, created⟩ := Barrier.Engine.create_of_bounds valid
    (View.queried c.problem apart s.world.problem) chosen
  refine ⟨w, ?_⟩
  rw [innerResult, created]
  rfl

/-- Where the user's callbacks succeed, every callback of the subproblem does. -/
theorem View.succeedsAt {p : Problem ℝ σ d} {z : Vector ℝ (d.n + d.mIneq)}
    (succeeds : p.SucceedsAt (variablePart z)) : (v.problem p).SucceedsAt z where
  objective := objective_succeeds succeeds
  equalities _ _ := rfl
  inequalities _ _ := rfl
  gradient := gradient_succeeds succeeds
  equalityJacobian _ _ := rfl
  inequalityJacobian _ _ := rfl

end Penalty

namespace Barrier

/-- Without a budget a run stays at the point of its start. -/
theorem Engine.Follows.point_of_no_budget {α σ ω : Type} [Scalar α] [DenseSolver α] {d : Dims}
    {e : Engine α σ d} {obs : Observer α d ω} {o : ω} {first last : State α σ d}
    {reports : List (State α σ d)} {ending : Except (Failure α) Status}
    (follows : e.Follows obs o first reports ending last)
    (none : e.setup.settings.maxIter = 0) : last.curr.x.point = first.curr.x.point := by
  obtain ⟨o', course⟩ := follows.course
  have coherent := follows.coherent_beginning
  have decides : (first.headed e.setup).checked.1 ≠ Option.none := by
    intro undecided
    obtain ⟨errors, count, parameters⟩ := coherent.termination
    have early := Termination.lt_maxIter_of_check undecided
    rw [parameters] at early
    exact absurd early (by simp [Termination.ofInterior, none])
  cases course with
  | decided verdict =>
    obtain ⟨w, headed⟩ := first.headed_eq e.setup
    rw [headed]
    rfl
  | stopped undecided => exact absurd undecided decides
  | failed undecided => exact absurd undecided decides
  | stepped undecided => exact absurd undecided decides

end Barrier

end SmoothOpt
