import Mathlib
import SmoothOpt.Proofs.Barrier.Halfway
import SmoothOpt.Proofs.Barrier.Monotone

/-!
Steps on affine constraints.

The dual rows of an unshifted Newton system are the linearized constraints, and affine constraints
are their own linearization. So a step of length `alpha` takes the residuals of equalities and
inequalities to `1 - alpha` times what they were: the right-hand side, the blocks of the matrix, the
slicing of the solution and the trial update have to agree on every row for that. Backtracking only
changes `alpha`, and the step may be tested or tiny. Violation never grows along such steps.
-/
namespace SmoothOpt

open Scalar Linear Matrix

variable {σ ω : Type} {d : Dims}

/-- The function `x ↦ slope x + offset`, whose Jacobian is `slope` everywhere. -/
structure AffineForm (m n : Nat) where
  slope : Dense ℝ m n
  offset : Vector ℝ m

namespace AffineForm

variable {m n : Nat}

noncomputable def value (f : AffineForm m n) (x : Vector ℝ n) : Vector ℝ m :=
  Vector.ofFn fun r => ∑ i, f.slope.entry r i * x.get i + f.offset.get r

theorem get_value_line (f : AffineForm m n) {x y v : Vector ℝ n} {t : ℝ}
    (line : ∀ i, y.get i = x.get i + t * v.get i) (r : Fin m) :
    (f.value y).get r = (f.value x).get r + t * ∑ i, f.slope.entry r i * v.get i := by
  have entry : ∀ i, f.slope.entry r i * y.get i =
      f.slope.entry r i * x.get i + t * (f.slope.entry r i * v.get i) := by
    intro i
    rw [line]
    ring
  simp only [value, Vector.get_ofFn, entry, Finset.sum_add_distrib, ← Finset.mul_sum]
  ring

end AffineForm

/-- The constraints of a problem are affine and their Jacobians exact: what a call that succeeds
leaves, whenever it is made, is the value or the slope of the form. -/
structure Problem.AffineConstraints (p : Problem ℝ σ d) (eq : AffineForm d.mEq d.n)
    (ineq : AffineForm d.mIneq d.n) : Prop where
  equalities : ∀ x newX v, Answered (p.equalities x newX) v → v = eq.value x
  inequalities : ∀ x newX v, Answered (p.inequalities x newX) v → v = ineq.value x
  equalityJacobian : ∀ x newX j, AnsweredOver Dense.zeros (p.equalityJacobian x newX) j →
    j = eq.slope
  inequalityJacobian : ∀ x newX j, AnsweredOver Dense.zeros (p.inequalityJacobian x newX) j →
    j = ineq.slope

theorem Evaluation.ValuesAt.of_sameValues {p : Problem ℝ σ d} {x : Vector ℝ d.n}
    {e e' : Evaluation ℝ d} (values : e.ValuesAt p x) (same : e.SameValues e') :
    e'.ValuesAt p x := by
  refine ⟨?_, ?_, ?_⟩
  · rw [same.f]
    exact values.f
  · rw [same.eq]
    exact values.eq
  · rw [same.ineq]
    exact values.ineq

namespace Barrier

variable {c : Setup ℝ σ d} {s t : State ℝ σ d}

section OneStep

variable {eq : AffineForm d.mEq d.n} {ineq : AffineForm d.mIneq d.n}

/-- The constraint bodies a state holds are those of its point. -/
def State.Evaluates (s : State ℝ σ d) (eq : AffineForm d.mEq d.n) (ineq : AffineForm d.mIneq d.n) :
    Prop :=
  s.eval.eq = eq.value s.curr.x.point ∧ s.eval.ineq = ineq.value s.curr.x.point

/-- What an unshifted step of length `alpha` from `s` to `t` does to the residuals of affine
constraints. -/
structure ShrinksBy (alpha : ℝ) (eq : AffineForm d.mEq d.n) (ineq : AffineForm d.mIneq d.n)
    (s t : State ℝ σ d) : Prop where
  alpha_pos : 0 < alpha
  alpha_le_one : alpha ≤ 1
  equalities : ∀ r, (eq.value t.curr.x.point).get r =
    (1 - alpha) * (eq.value s.curr.x.point).get r
  inequalities : ∀ r, (ineq.value t.curr.x.point).get r - t.curr.s.point.get r =
    (1 - alpha) * ((ineq.value s.curr.x.point).get r - s.curr.s.point.get r)
  total : violation t.eval t.curr = (1 - alpha) * violation s.eval s.curr
  full : alpha = 1 → violation t.eval t.curr = 0

theorem State.Evaluates.of_values (affine : c.problem.AffineConstraints eq ineq)
    (values : s.eval.ValuesAt c.problem s.curr.x.point) : s.Evaluates eq ineq :=
  ⟨affine.equalities _ _ _ values.eq, affine.inequalities _ _ _ values.ineq⟩

theorem State.Evaluates.violation_eq (h : s.Evaluates eq ineq) :
    violation s.eval s.curr = ∑ r, |(eq.value s.curr.x.point).get r|
      + ∑ r, |(ineq.value s.curr.x.point).get r - s.curr.s.point.get r| := by
  rw [violation_eq_sum, h.1, h.2]

/-- One step: along the direction the residuals change at the rate of their own opposite. -/
theorem ShrinksBy.of_linearized {dir : Direction ℝ d} {alpha : ℝ} (alpha_pos : 0 < alpha)
    (alpha_le_one : alpha ≤ 1) (here : s.Evaluates eq ineq) (there : t.Evaluates eq ineq)
    (equalities : ∀ r, ∑ i, eq.slope.entry r i * dir.x.point.get i =
      -(eq.value s.curr.x.point).get r)
    (inequalities : ∀ r, ∑ i, ineq.slope.entry r i * dir.x.point.get i - dir.s.point.get r =
      s.curr.s.point.get r - (ineq.value s.curr.x.point).get r)
    (x : t.curr.x.point = (s.curr.trial dir c.bounds alpha).x.point)
    (slack : t.curr.s.point = (s.curr.trial dir c.bounds alpha).s.point) :
    ShrinksBy alpha eq ineq s t := by
  have line : ∀ i, t.curr.x.point.get i = s.curr.x.point.get i + alpha * dir.x.point.get i := by
    intro i
    rw [x]
    exact Vector.get_ofFn _ i
  have slacks : ∀ r, t.curr.s.point.get r = s.curr.s.point.get r + alpha * dir.s.point.get r := by
    intro r
    rw [slack]
    exact Vector.get_ofFn _ r
  have eq_shrunk : ∀ r, (eq.value t.curr.x.point).get r =
      (1 - alpha) * (eq.value s.curr.x.point).get r := by
    intro r
    rw [eq.get_value_line line, equalities]
    ring
  have ineq_shrunk : ∀ r, (ineq.value t.curr.x.point).get r - t.curr.s.point.get r =
      (1 - alpha) * ((ineq.value s.curr.x.point).get r - s.curr.s.point.get r) := by
    intro r
    rw [ineq.get_value_line line, slacks]
    linear_combination alpha * inequalities r
  have shrunk : violation t.eval t.curr = (1 - alpha) * violation s.eval s.curr := by
    have left : |1 - alpha| = 1 - alpha := abs_of_nonneg (sub_nonneg.mpr alpha_le_one)
    simp only [there.violation_eq, here.violation_eq, eq_shrunk, ineq_shrunk, abs_mul, left,
      ← Finset.mul_sum, mul_add]
  refine ⟨alpha_pos, alpha_le_one, eq_shrunk, ineq_shrunk, shrunk, ?_⟩
  rintro rfl
  rw [shrunk, sub_self, zero_mul]

end OneStep

section Runs

variable [solver : DenseSolver ℝ]

/-- The Newton system of the iteration is solved without a dual shift. -/
def State.Unshifted (s : State ℝ σ d) (c : Setup ℝ σ d) : Prop :=
  ∃ dir s' sol, (searchDirection c).outcome s = (.ok dir, s') ∧
    (Newton.solve (.ofSettings c.settings) s.shifts (s'.newtonData c)).result = .ok sol ∧
      sol.deltaC = 0

/-- Without a dual shift the search direction meets the linearized constraints. -/
theorem State.Unshifted.linearized (unshifted : s.Unshifted c) (exact : EigenExact solver)
    (symmetric : s.HandsSymmetric c) {dir : Direction ℝ d} {s₁ : State ℝ σ d}
    (searched : (searchDirection c).outcome s = (.ok dir, s₁)) :
    (∀ r, ∑ i, s.eval.jacEq.entry r i * dir.x.point.get i = -s.eval.eq.get r) ∧
      ∀ r, ∑ i, s.eval.jacIneq.entry r i * dir.x.point.get i - dir.s.point.get r =
        s.curr.s.point.get r - s.eval.ineq.get r := by
  obtain ⟨dir', s₂, sol, searched', solved, no_shift⟩ := unshifted
  obtain ⟨rfl, rfl⟩ : dir = dir' ∧ s₁ = s₂ := by
    simpa [searched] using searched'
  have balanced := symmetric _ _ searched
  obtain ⟨⟨w, k, m, u, rfl⟩, sol', solved', rfl⟩ := searchDirection_ok searched
  obtain rfl : sol' = sol := Except.ok.inj (solved'.symm.trans solved)
  obtain ⟨-, dual⟩ := (Newton.solve_iff exact balanced solved _ _).mpr ⟨rfl, rfl⟩
  rw [Newton.Solution.primal, Newton.Solution.dual, Newton.Data.dualRows_iff, no_shift] at dual
  simp only [State.newtonData, Vector.get_map, get_zipWith, zero_mul, sub_zero] at dual
  exact dual

/-- The state after the reports `before`: its values are answers at its point, and this point is
where the step chosen from the last report led, or where that report was if none was chosen. -/
structure AtTrial (c : Setup ℝ σ d) (before : List (State ℝ σ d)) (t : State ℝ σ d) : Prop where
  values : t.eval.ValuesAt c.problem t.curr.x.point
  arrival : ∀ s, before.getLast? = some s →
    (∃ dir acc e, Chosen c s dir acc e ∧
        t.curr.x.point = (s.curr.trial dir c.bounds acc.alpha).x.point ∧
        t.curr.s.point = (s.curr.trial dir c.bounds acc.alpha).s.point) ∨
      (∃ f, ((chooseStep c).outcome s).1 = .error f) ∧ t.curr = s.curr ∧ t.eval = s.eval

namespace AtTrial

variable {before : List (State ℝ σ d)}

theorem of_chosen {dir : Direction ℝ d} {acc : Accepted ℝ} {e : Evaluation ℝ d}
    (chosen : Chosen c s dir acc e)
    (values : t.eval.ValuesAt c.problem (s.curr.trial dir c.bounds acc.alpha).x.point)
    (x : t.curr.x.point = (s.curr.trial dir c.bounds acc.alpha).x.point)
    (slack : t.curr.s.point = (s.curr.trial dir c.bounds acc.alpha).s.point) :
    AtTrial c (before ++ [s]) t := by
  refine ⟨by rwa [x], ?_⟩
  intro r last
  rw [List.getLast?_concat, Option.some.injEq] at last
  subst last
  exact .inl ⟨dir, acc, e, chosen, x, slack⟩

theorem advanced (step : (advance c).outcome s = (.ok (), t)) : AtTrial c (before ++ [s]) t := by
  obtain ⟨dir, acc, e, e', moved, chosen, same, -, ⟨w, k, m, u, rfl⟩, rfl⟩ := advance_ok step
  obtain ⟨w', y, completed⟩ := complete_eq
    { s.moveTo c dir acc e' (s.curr.maxDualStep dir c.bounds s.tau) with
      world := w, curvature := k, shifts := m, trialEval := u }
    c dir acc (s.curr.maxDualStep dir c.bounds s.tau)
  rw [completed]
  exact .of_chosen chosen (chosen.accepted.values.of_sameValues same) rfl rfl

theorem failed {f : Failure ℝ} (h : AtTrial c before s)
    (step : (advance c).outcome s = (.error f, t)) : AtTrial c (before ++ [s]) t := by
  obtain ⟨⟨w, k, m, u, rfl⟩, -, undecided⟩ |
    ⟨dir, acc, e, e', q, chosen, same, -, -, ⟨w, k, m, u, rfl⟩⟩ := advance_error step
  · refine ⟨h.values, ?_⟩
    intro r last
    rw [List.getLast?_concat, Option.some.injEq] at last
    subst last
    exact .inr ⟨⟨f, undecided⟩, rfl, rfl⟩
  · exact .of_chosen chosen (chosen.accepted.values.of_sameValues same) rfl rfl

theorem preserved (c : Setup ℝ σ d) : Preserved c (AtTrial c) where
  check _ _ h := ⟨h.values, h.arrival⟩
  report _ _ h := State.updateBarrier_preserves (P := AtTrial c _)
    (fun _ _ _ h _ _ => ⟨h.values, h.arrival⟩) ⟨h.values, h.arrival⟩
  step _ _ _ _ step := .advanced step

end AtTrial

section Affine

variable {eq : AffineForm d.mEq d.n} {ineq : AffineForm d.mIneq d.n}

/-- The states `l` of a run on affine constraints: they hold the constraint bodies at their points,
and every unshifted step from one to the next shrinks the residuals. -/
structure AffineRun (c : Setup ℝ σ d) (eq : AffineForm d.mEq d.n) (ineq : AffineForm d.mIneq d.n)
    (l : List (State ℝ σ d)) : Prop where
  evaluated : ∀ s ∈ l, s.Evaluates eq ineq
  shrinks : ∀ (k : Nat) (s t : State ℝ σ d) (dir : Direction ℝ d) (acc : Accepted ℝ)
    (e : Evaluation ℝ d), l[k]? = some s → l[k + 1]? = some t → Chosen c s dir acc e →
    s.Unshifted c → ShrinksBy acc.alpha eq ineq s t
  /-- Along any number of unshifted steps the violation does not grow, and a feasible point stays
  feasible. -/
  descends : ∀ (k m : Nat) (s t : State ℝ σ d), k ≤ m → l[k]? = some s → l[m]? = some t →
    (∀ j r dir acc e, k ≤ j → j < m → l[j]? = some r → Chosen c r dir acc e → r.Unshifted c) →
    violation t.eval t.curr ≤ violation s.eval s.curr ∧
      (violation s.eval s.curr = 0 → violation t.eval t.curr = 0)

namespace Engine.Follows

variable {e : Engine ℝ σ d} {obs : Observer ℝ d ω} {o : ω} {first last : State ℝ σ d}
  {reports : List (State ℝ σ d)} {ending : Except (Failure ℝ) Status}

theorem atTrial (follows : e.Follows obs o first reports ending last) {k : Nat}
    (here : (visited reports ending last)[k]? = some s) :
    AtTrial e.setup ((visited reports ending last).take k) s := by
  refine follows.visited_holds (AtTrial.preserved _) (fun _ _ _ _ h step => h.failed step) ?_ here
  refine ⟨follows.coherent_beginning.eval.toValuesAt, ?_⟩
  intro r none
  cases none

/-- The step from one visited state to the next. -/
theorem shrinks (follows : e.Follows obs o first reports ending last) (exact : EigenExact solver)
    (inRange : e.setup.settings.InRange) (affine : e.setup.problem.AffineConstraints eq ineq)
    (symmetric : ∀ r ∈ reports, r.HandsSymmetric e.setup) {k : Nat}
    (here : (visited reports ending last)[k]? = some s)
    (there : (visited reports ending last)[k + 1]? = some t) {dir : Direction ℝ d}
    {acc : Accepted ℝ} {eval : Evaluation ℝ d} (chosen : Chosen e.setup s dir acc eval)
    (unshifted : s.Unshifted e.setup) : ShrinksBy acc.alpha eq ineq s t := by
  have member := mem_reports_of_next here there
  obtain ⟨init, rest, -, inside⟩ := follows.at_report inRange member
  have answers := (follows.coherent_report member).eval
  have evaluates := State.Evaluates.of_values affine answers.toValuesAt
  have arrived := follows.atTrial there
  rw [take_succ_of_getElem? here] at arrived
  obtain ⟨⟨s₁, searched⟩, -⟩ := chosen.searched
  obtain ⟨equalities, inequalities⟩ := unshifted.linearized exact (symmetric s member) searched
  rw [affine.equalityJacobian _ _ _ answers.jacEq, evaluates.1] at equalities
  rw [affine.inequalityJacobian _ _ _ answers.jacIneq, evaluates.2] at inequalities
  obtain ⟨dir', acc', e', chosen', x, slack⟩ | ⟨⟨f, undecided⟩, -⟩ :=
    arrived.arrival s List.getLast?_concat
  · obtain ⟨rfl, rfl, rfl⟩ := chosen.unique chosen'
    exact .of_linearized (inside.inside.alpha_pos inRange chosen.accepted)
      (inside.inside.alpha_le_one inRange chosen.accepted) evaluates
      (.of_values affine arrived.values) equalities inequalities x slack
  · rw [chosen.step] at undecided
    cases undecided

theorem affineRun (follows : e.Follows obs o first reports ending last) (exact : EigenExact solver)
    (inRange : e.setup.settings.InRange) (affine : e.setup.problem.AffineConstraints eq ineq)
    (symmetric : ∀ r ∈ reports, r.HandsSymmetric e.setup) :
    AffineRun e.setup eq ineq (visited reports ending last) := by
  refine ⟨?_, ?_, ?_⟩
  · intro s member
    obtain ⟨k, here⟩ := List.mem_iff_getElem?.mp member
    exact .of_values affine (follows.atTrial here).values
  · intro k s t dir acc eval here there chosen unshifted
    exact follows.shrinks exact inRange affine symmetric here there chosen unshifted
  · intro k m s t order here
    induction m, order using Nat.le_induction generalizing t with
    | base =>
      intro there _
      obtain rfl := Option.some.inj (here.symm.trans there)
      exact ⟨le_rfl, id⟩
    | succ m order ih =>
      intro there unshifted
      obtain ⟨r, between⟩ := exists_getElem?_of_le (Nat.le_succ m) there
      obtain ⟨below, feasible⟩ := ih r between fun j r' dir acc eval from_k below_m =>
        unshifted j r' dir acc eval from_k (below_m.trans (Nat.lt_succ_self m))
      have arrived := follows.atTrial there
      rw [take_succ_of_getElem? between] at arrived
      obtain ⟨dir, acc, eval, chosen, -⟩ | ⟨-, curr, same⟩ :=
        arrived.arrival r List.getLast?_concat
      · have step := follows.shrinks exact inRange affine symmetric between there chosen
          (unshifted m r dir acc eval order (Nat.lt_succ_self m) between chosen)
        have lost : 0 ≤ acc.alpha * violation r.eval r.curr :=
          mul_nonneg step.alpha_pos.le (violation_nonneg _ _)
        rw [step.total]
        refine ⟨by linarith, ?_⟩
        intro start
        rw [feasible start, mul_zero]
      · rw [curr, same]
        exact ⟨below, feasible⟩

end Engine.Follows

/-- In every run on a problem with affine constraints and symmetric Hessians, an accepted step of
length `alpha` whose system was solved without a dual shift takes every residual of the constraints
to `1 - alpha` times what it was, with `alpha` in `(0, 1]`. -/
theorem affine_residuals_shrink (exact : EigenExact solver) {p : Problem ℝ σ d}
    (affine : p.AffineConstraints eq ineq) {settings : InteriorSettings ℝ}
    (inRange : settings.InRange) {e₀ e : Engine ℝ σ d} {w w' : World ℝ σ}
    (created : (Engine.create p settings).outcome w = (.ok e₀, w')) (runs : e₀.Reaches e)
    (obs : Observer ℝ d ω) (o : ω) {first : State ℝ σ d}
    (started : (startingProcedure e.setup).outcome e.opened = (.ok (), first)) :
    ∃ reports ending last, e.Follows obs o first reports ending last ∧
      ((∀ r ∈ reports, r.HandsSymmetric e.setup) →
        AffineRun e.setup eq ineq (visited reports ending last)) := by
  obtain ⟨rfl, rfl, -, own, w₀, state⟩ := Engine.create_ok inRange created
  obtain ⟨reports, ending, last, follows⟩ := e.run_follows obs o started
  refine ⟨reports, ending, last, follows, ?_⟩
  intro symmetric
  rw [← runs.setup_eq] at inRange affine
  exact follows.affineRun exact inRange affine symmetric

end Affine

end Runs

namespace Halfway

/-- Both constraints are the variable itself. -/
noncomputable def body : AffineForm 1 1 := ⟨single (single 1), single 0⟩

theorem body_value (v : Vector ℝ 1) : body.value v = #v[v.get 0] := by
  apply ext_get
  intro r
  obtain rfl := Fin.fin_one_eq_zero r
  simp [AffineForm.value, body, Dense.entry, Vector.get_eq_getElem]

theorem affine (x : ℝ) : (problem x).AffineConstraints body body := by
  refine ⟨?_, ?_, ?_, ?_⟩
  · intro v newX c answered
    rw [body_value]
    exact answered.eq_of_written rfl
  · intro v newX c answered
    rw [body_value]
    exact answered.eq_of_written rfl
  · intro v newX j answered
    exact Answered.eq_of_written rfl ⟨_, answered⟩
  · intro v newX j answered
    exact Answered.eq_of_written rfl ⟨_, answered⟩

end Halfway

open scoped Linear.Exact

/-- Half a step takes both residuals to half of what they were, and the violation from 301. -/
theorem halfway_residuals_shrink : ∃ first r last,
    (Halfway.engine 200).Follows Observer.silent () first [r] (.ok .success) last ∧
      AffineRun (Halfway.setup 200) Halfway.body Halfway.body [r, last] ∧
      r.Unshifted (Halfway.setup 200) ∧
      ShrinksBy (1 / 2) Halfway.body Halfway.body r last ∧
      violation r.eval r.curr = 301 ∧ violation last.eval last.curr = 301 / 2 := by
  have large : (100 : ℝ) ≤ 200 := by norm_num
  obtain ⟨first, s, last, follows, -, h, -, -, dir, acc, e, chosen, half, -⟩ :=
    Halfway.run Exact.exactSolver_exact large
  obtain ⟨reports, ending, last', follows', shrinks⟩ := affine_residuals_shrink
    Exact.exactSolver_exact (Halfway.affine 200) (Halfway.settings_inRange (by norm_num))
    (Halfway.created 200) .refl Observer.silent () follows.start
  obtain ⟨rfl, rfl, rfl⟩ := follows.unique follows'
  have run := shrinks (by
    intro _ _ _ _ _ i j
    rw [Subsingleton.elim i j])
  obtain ⟨dir', s', sol, searched, -, -, solved, -, plain, -⟩ :=
    h.direction Exact.exactSolver_exact (by norm_num)
  have unshifted : (s.reported (Halfway.setup 200)).Unshifted (Halfway.setup 200) :=
    ⟨dir', s', sol, searched, solved, plain⟩
  have step := run.shrinks 0 _ last' dir acc e rfl rfl chosen unshifted
  rw [half] at step
  have violated : violation (s.reported (Halfway.setup 200)).eval
      (s.reported (Halfway.setup 200)).curr = 301 := by
    obtain ⟨equality, inequality⟩ := h.bodies
    rw [Halfway.violation_eq, equality, inequality, h.slack]
    norm_num
  refine ⟨first, _, last', follows, run, unshifted, step, violated, ?_⟩
  rw [step.total, violated]
  norm_num

end Barrier

end SmoothOpt
