import Mathlib
import SmoothOpt.Proofs.Barrier.Halfway

/-!
A successful run certifies its point.

When a run ends with success in exact arithmetic, the point it returns meets the first-order
optimality conditions of the prepared problem up to the tolerance. The argument joins three facts
about the last state: it is coherent, so the error the check looked at is the error of this very
point; it is interior, so a small error bounds each of its parts; and its distances are carried from
a start inside the bounds.
-/
namespace SmoothOpt

open Scalar Linear

variable {n : Nat} {d : Dims}

/-- A point respects the present bounds up to `floor`. -/
structure Box.Holds (b : Box ℝ n) (floor : ℝ) (v : Vector ℝ n) : Prop where
  lower : ∀ i, (b.lower.get i).present = true → (b.lower.get i).value - floor ≤ v.get i
  upper : ∀ i, (b.upper.get i).present = true → v.get i ≤ (b.upper.get i).value + floor

theorem Box.pushInside_holds {b : Box ℝ n} (ordered : b.Ordered) {settings : InteriorSettings ℝ}
    (inRange : settings.InRange) (v : Vector ℝ n) :
    b.Holds 0 (b.pushInside settings.kappa1 settings.kappa2 v) := by
  have entry : ∀ i, _ := fun i => pushInside_mem inRange.kappa1.le inRange.kappa2.1
    inRange.kappa2.2 (ordered i) (v.get i)
  constructor
  · intro i present
    rw [sub_zero, Box.pushInside, Vector.get_ofFn]
    exact (entry i).1 present
  · intro i present
    rw [add_zero, Box.pushInside, Vector.get_ofFn]
    exact (entry i).2 present

/-- Both points of an iterate that was pushed inside are. -/
theorem Iterate.pushedInside_holds {b : Bounds ℝ d} (ordered : b.Ordered)
    {settings : InteriorSettings ℝ} (inRange : settings.InRange) (it : Iterate ℝ d) :
    b.x.Holds 0 (it.pushedInside b settings.kappa1 settings.kappa2).x.point ∧
      b.s.Holds 0 (it.pushedInside b settings.kappa1 settings.kappa2).s.point :=
  ⟨Box.pushInside_holds ordered.x inRange _, Box.pushInside_holds ordered.s inRange _⟩

/-- Carried distances that are positive keep the point inside the bounds, up to the floor. -/
theorem Block.CarriedFrom.holds {k : Block ℝ n} {b : Box ℝ n} {floor : ℝ} {start : Vector ℝ n}
    (h : k.CarriedFrom b floor start) (inside : k.Interior b) (floor_nonneg : 0 ≤ floor)
    (started : b.Holds 0 start) : b.Holds floor k.point := by
  constructor
  · intro i present
    have gap := h.lower i present
    have slack := inside.slackLo.pos present
    have distance := started.lower i present
    have small : max 0 (floor - (start.get i - (b.lower.get i).value)) ≤ floor :=
      max_le floor_nonneg (by linarith)
    linarith
  · intro i present
    have gap := h.upper i present
    have slack := inside.slackHi.pos present
    have distance := started.upper i present
    have small : max 0 (floor - ((b.upper.get i).value - start.get i)) ≤ floor :=
      max_le floor_nonneg (by linarith)
    linarith

namespace Barrier

variable {σ ω : Type}

/-- The first-order optimality conditions of a prepared problem, up to the tolerance, at a point
with its evaluation. -/
structure Certificate (p : Problem ℝ σ d) (settings : InteriorSettings ℝ) (b : Bounds ℝ d)
    (it : Iterate ℝ d) (e : Evaluation ℝ d) : Prop where
  answers : e.AnswersAt p it.x.point
  feasible : it.FeasibleWithin e settings.tolerance
  boundsX : b.x.Holds 1e-16 it.x.point
  boundsS : b.s.Holds 1e-16 it.s.point
  interior : it.Interior b
  stationary : it.StationaryWithin e (settings.tolerance * it.dualScale b settings.pSmax)
  complementary : it.ComplementaryWithin b (settings.tolerance * it.boundScale b settings.pSmax)
  dualScale : 1 ≤ it.dualScale b settings.pSmax
  boundScale : 1 ≤ it.boundScale b settings.pSmax

variable {c : Setup ℝ σ d} {s : State ℝ σ d} {start : Iterate ℝ d}

/-- A coherent interior state with a small error, carried from a start inside the bounds, is
certified. -/
theorem Certificate.of_state (inRange : c.settings.InRange) (coherent : s.Coherent c)
    (inside : s.Interior c start) (startX : c.bounds.x.Holds 0 start.x.point)
    (startS : c.bounds.s.Holds 0 start.s.point)
    (small : s.resid.nlpOverall ≤ c.settings.tolerance) :
    Certificate c.problem c.settings c.bounds s.curr s.eval := by
  rw [coherent.resid, Residual.compute_nlpOverall_le_iff inside.curr inRange.pSmax
    inRange.tolerance.le] at small
  obtain ⟨stationary, feasible, complementary⟩ := small
  have floor_nonneg : (0 : ℝ) ≤ minSlack := by
    norm_num [minSlack]
  exact ⟨coherent.eval, feasible,
    inside.carried.x.holds inside.curr.x floor_nonneg startX,
    inside.carried.s.holds inside.curr.s floor_nonneg startS, inside.curr, stationary,
    complementary, one_le_averageScale inRange.pSmax _ _, one_le_averageScale inRange.pSmax _ _⟩

section Runs

variable [DenseSolver ℝ]

/-- A successful start places both points inside the bounds. -/
theorem start_holds (inRange : c.settings.InRange) (ordered : c.bounds.Ordered)
    {s' : State ℝ σ d} (h : (startingProcedure c).outcome s = (.ok (), s')) :
    c.bounds.x.Holds 0 s'.curr.x.point ∧ c.bounds.s.Holds 0 s'.curr.s.point := by
  obtain ⟨x0, e, y, w, -, -, rfl⟩ := startingProcedure_ok h
  -- the start pushes the given point and the constraint bodies there
  exact Iterate.pushedInside_holds ordered inRange
    { s.curr with x := { s.curr.x with point := x0 }, s := { s.curr.s with point := e.ineq } }

namespace Engine

variable {e : Engine ℝ σ d} {obs : Observer ℝ d ω} {o : ω} {first last : State ℝ σ d}
  {reports : List (State ℝ σ d)} {ending : Except (Failure ℝ) Status}

/-- The state left by a course that ends with success is coherent and has a small error. -/
theorem Follows.coherent_of_success (follows : e.Follows obs o first reports (.ok .success) last) :
    last.Coherent e.setup ∧ last.resid.nlpOverall ≤ e.setup.settings.tolerance := by
  obtain ⟨o', course⟩ := follows.course
  -- of the four exits, only a decided one can tell success
  cases course.exit_holds (coherent_preserved e.setup) [] follows.coherent_beginning with
  | decided coherent verdict => exact ⟨coherent.checked, coherent.success_iff.mp verdict⟩

end Engine

/-- A run that ends with success returns a point that meets the first-order optimality conditions
of the prepared problem up to the tolerance, and leaves the rest of the certificate in the
engine. -/
theorem success_certified {p : Problem ℝ σ d} {settings : InteriorSettings ℝ}
    (inRange : settings.InRange) {e₀ e : Engine ℝ σ d} {w w' : World ℝ σ}
    (created : (Engine.create p settings).outcome w = (.ok e₀, w')) (same : e.setup = e₀.setup)
    (obs : Observer ℝ d ω) (o : ω) (success : (e.run obs o).1.status = .success) :
    let res := (e.run obs o).1
    let left := (e.run obs o).2.1.state
    Certificate p settings e.setup.bounds left.curr left.eval ∧
      res.x = left.curr.x.point ∧ res.yc = left.curr.yc ∧ res.yd = left.curr.yd ∧
      res.zl = left.curr.x.multLo ∧ res.zu = left.curr.x.multHi ∧ res.obj = left.eval.f := by
  obtain ⟨rfl, rfl, ordered, -⟩ := Engine.create_ok inRange created
  rw [← same] at inRange ordered ⊢
  have regular : (e.run obs o).1.status.isFailure = false := by
    rw [success]
    rfl
  obtain ⟨first, reports, last, follows⟩ := Engine.follows_of_regular regular
  rw [success] at follows
  obtain ⟨coherent, small⟩ := follows.coherent_of_success
  have inside := (follows.at_exit inRange).1
  obtain ⟨startX, startS⟩ := start_holds inRange ordered follows.start
  have certified := Certificate.of_state inRange coherent inside startX startS small
  obtain ⟨w, state⟩ := follows.state
  dsimp only
  rw [follows.result, state]
  exact ⟨certified, rfl, rfl, rfl, rfl, rfl, rfl⟩

end Runs

open scoped Linear.Exact

/-- A run that halves the barrier parameter and the variable succeeds at 100, with tolerance 100. -/
theorem halfway_certified :
    ((Halfway.engine 200).run Observer.silent ()).1.status = .success ∧
      ((Halfway.engine 200).run Observer.silent ()).1.x.get 0 = 100 ∧
      Certificate (Halfway.problem 200) (Halfway.settings 200) Halfway.bounds
        ((Halfway.engine 200).run Observer.silent ()).2.1.state.curr
        ((Halfway.engine 200).run Observer.silent ()).2.1.state.eval := by
  have large : (100 : ℝ) ≤ 200 := by norm_num
  obtain ⟨first, s, last, follows, -, -, midway, -⟩ := Halfway.run Exact.exactSolver_exact large
  have success := follows.status_eq
  refine ⟨success, ?_, (success_certified (Halfway.settings_inRange (by norm_num))
    (Halfway.created 200) rfl Observer.silent () success).1⟩
  rw [follows.x_eq, midway.point]
  norm_num

end Barrier

end SmoothOpt
