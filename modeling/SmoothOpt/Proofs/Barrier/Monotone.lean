import Mathlib
import SmoothOpt.Proofs.Barrier.Descent
import SmoothOpt.Proofs.Barrier.Phases
import SmoothOpt.Proofs.Barrier.Ray

/-!
Runs without general constraints descend the barrier objective.

With no equalities and no inequalities every point is feasible and the Newton system has only its
primal block, which the inertia correction makes positive definite. So a direction that moves at all
descends, the switching condition of the line search holds at every trial, and a tested step is
accepted for an Armijo decrease only. No step is a filter step, so nothing is ever recorded.
-/
namespace SmoothOpt

open Scalar Linear

/-- From a feasible point, along a direction of descent, only an Armijo decrease is accepted. -/
theorem LineSearch.accept_of_feasible {l : LineSearch ℝ} {filter : Filter ℝ}
    {current trial : Measures ℝ} {alpha slope : ℝ} {kind : StepKind} (capped : 0 ≤ l.thetaMin)
    (sTheta : l.sTheta ≠ 0) (feasible : current.theta = 0) (alpha_pos : 0 < alpha)
    (descends : slope < 0) (h : l.accept filter current trial alpha slope = some kind) :
    kind = .armijo ∧ trial.phi ≤ current.phi + l.etaPhi * alpha * slope := by
  have worthwhile : l.delta * pow (0 : ℝ) l.sTheta < alpha * pow (-slope) l.sPhi := by
    rw [pow_real, pow_real, Real.zero_rpow sTheta, mul_zero]
    exact mul_pos alpha_pos (Real.rpow_pos_of_pos (neg_pos.mpr descends) _)
  have switching : current.theta ≤ l.thetaMin ∧ l.switching alpha current.theta slope := by
    rw [feasible]
    refine ⟨capped, ?_⟩
    simp only [LineSearch.switching, Bool.and_eq_true, decide_eq_true_eq]
    exact ⟨descends, worthwhile⟩
  unfold accept at h
  split at h
  · cases h
  · split at h
    · cases h
    · split at h
      · cases h
        exact ⟨rfl, ‹_›⟩
      · cases h

/-- A direction that moves nothing has no size. -/
theorem Direction.relativeSize_of_still {d : Dims} {dir : Direction ℝ d} (still : dir.primal = 0)
    (it : Iterate ℝ d) : dir.relativeSize it ≤ 0 := by
  have stillX : ∀ i, dir.x.point.get i = 0 := fun i => congrFun still (.inl i)
  have stillS : ∀ j, dir.s.point.get j = 0 := fun j => congrFun still (.inr j)
  rw [dir.relativeSize_le_iff]
  simp [stillX, stillS]

namespace Barrier

theorem tinyStep_pos : (0 : ℝ) < tinyStep := by
  norm_num [tinyStep]

section Runs

variable {σ ω : Type} {d : Dims} [solver : DenseSolver ℝ]

/-- Whenever a direction can be computed from the state, the Hessian it is computed with is
symmetric. -/
def State.HandsSymmetric (s : State ℝ σ d) (c : Setup ℝ σ d) : Prop :=
  ∀ dir s', (searchDirection c).outcome s = (.ok dir, s') → s'.curvature.matrix.Symmetric

/-- In every run of the engine, also after other runs, the Hessians of the Newton systems are
symmetric. -/
def Engine.HandsSymmetric (e₀ : Engine ℝ σ d) : Prop :=
  ∀ (e : Engine ℝ σ d), e₀.Reaches e →
    ∀ (ω : Type) (obs : Observer ℝ d ω) (o : ω) (first : State ℝ σ d) (reports : List (State ℝ σ d))
      (ending : Except (Failure ℝ) Status) (last : State ℝ σ d),
      e.Follows obs o first reports ending last → ∀ r ∈ reports, r.HandsSymmetric e.setup

/-- The run of an unconstrained problem through the states `l`, from the first report on: nothing is
recorded, and every step is tiny or an Armijo step with a decrease of the barrier objective. -/
structure BarrierDescent (c : Setup ℝ σ d) (l : List (State ℝ σ d)) : Prop where
  unfiltered : ∀ s ∈ l, s.filter.entries = []
  kinds : ∀ (k : Nat) (s t : State ℝ σ d) (kind : StepKind), l[k]? = some s →
    l[k + 1]? = some t → s.leftBy c = some kind → kind = .armijo ∨ kind = .tiny
  /-- The decrease is a fraction of what the negative slope promises for the length of the step. -/
  decreases : ∀ (k : Nat) (s t : State ℝ σ d) (dir : Direction ℝ d) (acc : Accepted ℝ)
    (e : Evaluation ℝ d), l[k]? = some s → l[k + 1]? = some t → Chosen c s dir acc e →
    acc.kind ≠ .tiny → 0 < acc.alpha ∧ barrierSlope s.eval s.curr dir c.bounds s.mu < 0 ∧
      (t.measuresAt c s.mu).phi ≤ (s.measures c).phi
        + c.settings.etaPhi * acc.alpha * barrierSlope s.eval s.curr dir c.bounds s.mu
  /-- Within a phase the barrier objective does not grow, as long as no step is tiny. -/
  descends : ∀ (k m : Nat) (s t : State ℝ σ d), k ≤ m → l[k]? = some s → l[m]? = some t →
    t.mu = s.mu → (∀ j r, k ≤ j → j < m → l[j]? = some r → r.leftBy c = some .armijo) →
    (t.measures c).phi ≤ (s.measures c).phi

section Unconstrained

variable {n : Nat} {c : Setup ℝ σ ⟨n, 0, 0⟩} {s s' : State ℝ σ ⟨n, 0, 0⟩}
  {dir : Direction ℝ ⟨n, 0, 0⟩} {acc : Accepted ℝ} {e : Evaluation ℝ ⟨n, 0, 0⟩}

/-- Without constraints every direction that moves at all descends, whatever the dual shift. -/
theorem barrierSlope_neg_of_unconstrained (exact : EigenExact solver)
    (searched : (searchDirection c).outcome s = (.ok dir, s'))
    (symmetric : s'.curvature.matrix.Symmetric) (moves : dir.primal ≠ 0) :
    barrierSlope s.eval s.curr dir c.bounds s.mu < 0 := by
  obtain ⟨⟨w, k, m, t, rfl⟩, sol, solved, rfl⟩ := searchDirection_ok searched
  have slope := barrierSlope_of_null exact symmetric solved (Subsingleton.elim _ _)
  have form_pos := Newton.primalBlock_pos_of_unconstrained exact symmetric solved moves
  rw [barrierSlope_eq]
  exact slope.trans_lt (neg_neg_of_pos form_pos)

/-- A chosen step that was tested is an Armijo step along a direction of descent. -/
theorem Chosen.armijo (exact : EigenExact solver) (inRange : c.settings.InRange)
    (symmetric : s.HandsSymmetric c) {start : Iterate ℝ ⟨n, 0, 0⟩} (inside : s.Interior c start)
    {theta0 : ℝ} (search : s.lineSearch = .ofSettings c.settings theta0)
    (chosen : Chosen c s dir acc e) (tested : acc.kind ≠ .tiny) :
    acc.kind = .armijo ∧ 0 < acc.alpha ∧ barrierSlope s.eval s.curr dir c.bounds s.mu < 0 ∧
      (trialMeasures c s dir acc.alpha e).phi ≤ (s.measures c).phi
        + c.settings.etaPhi * acc.alpha * barrierSlope s.eval s.curr dir c.bounds s.mu := by
  obtain ⟨⟨s₁, searched⟩, measurable⟩ := chosen.searched
  have moves : dir.primal ≠ 0 := by
    intro still
    apply measurable tested
    exact (Direction.relativeSize_of_still still _).trans_lt tinyStep_pos
  have slope_neg := barrierSlope_neg_of_unconstrained exact searched (symmetric _ _ searched) moves
  have alpha_pos := inside.alpha_pos inRange chosen.accepted
  have passed := chosen.accepted.test.resolve_left tested
  have capped : 0 ≤ s.lineSearch.thetaMin := by
    rw [search]
    simp only [LineSearch.ofSettings, maxNum_real]
    positivity
  have sTheta : s.lineSearch.sTheta ≠ 0 := by
    rw [search]
    exact inRange.sTheta.ne'
  obtain ⟨kind, decrease⟩ := LineSearch.accept_of_feasible capped sTheta
    (violation_of_unconstrained _ _) alpha_pos slope_neg passed
  rw [search] at decrease
  exact ⟨kind, alpha_pos, slope_neg, decrease⟩

namespace Engine

variable {e : Engine ℝ σ ⟨n, 0, 0⟩} {obs : Observer ℝ ⟨n, 0, 0⟩ ω} {o : ω}
  {first last : State ℝ σ ⟨n, 0, 0⟩} {reports : List (State ℝ σ ⟨n, 0, 0⟩)}
  {ending : Except (Failure ℝ) Status}

namespace Follows

/-- What a tested step from a reported state is. -/
theorem armijo_at (follows : e.Follows obs o first reports ending last) (exact : EigenExact solver)
    (inRange : e.setup.settings.InRange) (margins : e.Margins)
    (symmetric : ∀ r ∈ reports, r.HandsSymmetric e.setup) (member : s ∈ reports)
    {eval : Evaluation ℝ ⟨n, 0, 0⟩} (chosen : Chosen e.setup s dir acc eval)
    (tested : acc.kind ≠ .tiny) :
    acc.kind = .armijo ∧ 0 < acc.alpha ∧
      barrierSlope s.eval s.curr dir e.setup.bounds s.mu < 0 ∧
      (trialMeasures e.setup s dir acc.alpha eval).phi ≤ (s.measures e.setup).phi
        + e.setup.settings.etaPhi * acc.alpha
          * barrierSlope s.eval s.curr dir e.setup.bounds s.mu := by
  obtain ⟨init, rest, -, inside⟩ := follows.at_report inRange member
  obtain ⟨k, here⟩ := List.mem_iff_getElem?.mp member
  exact chosen.armijo exact inRange (symmetric s member) inside.inside
    (follows.inPhase_report margins here).search tested

/-- Every step of a run is tiny or an Armijo step. -/
theorem kind_at (follows : e.Follows obs o first reports ending last) (exact : EigenExact solver)
    (inRange : e.setup.settings.InRange) (margins : e.Margins)
    (symmetric : ∀ r ∈ reports, r.HandsSymmetric e.setup) (member : s ∈ reports) {kind : StepKind}
    (left : s.leftBy e.setup = some kind) : kind = .armijo ∨ kind = .tiny := by
  obtain ⟨dir, acc, eval, chosen, rfl⟩ := State.chosen_of_leftBy left
  by_cases tiny : acc.kind = .tiny
  · exact .inr tiny
  · exact .inl (follows.armijo_at exact inRange margins symmetric member chosen tiny).1

/-- Nothing is recorded in a run, up to the state it leaves. -/
theorem unfiltered (follows : e.Follows obs o first reports ending last) (exact : EigenExact solver)
    (inRange : e.setup.settings.InRange) (margins : e.Margins)
    (symmetric : ∀ r ∈ reports, r.HandsSymmetric e.setup) :
    (∀ s ∈ reports, s.filter.entries = []) ∧ last.filter.entries = [] := by
  have unrecorded : ∀ (before : List (State ℝ σ ⟨n, 0, 0⟩)) (mu : ℝ), before <+: reports →
      phaseEntries e.setup mu before = [] := by
    intro before mu part
    apply phaseEntries_of_unfiltered
    intro r member _ left
    obtain armijo | tiny :=
      follows.kind_at exact inRange margins symmetric (part.subset member) left
    · cases armijo
    · cases tiny
  constructor
  · intro s member
    obtain ⟨k, here⟩ := List.mem_iff_getElem?.mp member
    rw [(follows.inPhase_report margins here).filter]
    exact unrecorded _ _ (List.take_prefix k reports)
  · obtain ⟨before, after, part, -⟩ := follows.inPhase_exit margins
    rw [after.filter]
    exact unrecorded _ _ part

/-- A tested step lowers the barrier objective from one visited state to the next. -/
theorem decrease_to_next (follows : e.Follows obs o first reports ending last)
    (exact : EigenExact solver) (inRange : e.setup.settings.InRange) (margins : e.Margins)
    (symmetric : ∀ r ∈ reports, r.HandsSymmetric e.setup) {k : Nat}
    (here : (visited reports ending last)[k]? = some s)
    (there : (visited reports ending last)[k + 1]? = some s') {eval : Evaluation ℝ ⟨n, 0, 0⟩}
    (chosen : Chosen e.setup s dir acc eval) (tested : acc.kind ≠ .tiny) :
    0 < acc.alpha ∧ barrierSlope s.eval s.curr dir e.setup.bounds s.mu < 0 ∧
      (s'.measuresAt e.setup s.mu).phi ≤ (s.measures e.setup).phi + e.setup.settings.etaPhi
        * acc.alpha * barrierSlope s.eval s.curr dir e.setup.bounds s.mu := by
  have arrived := ((follows.inPhase margins there).after here).arrival s dir acc eval
    List.getLast?_concat chosen
  obtain ⟨-, decrease⟩ := follows.armijo_at exact inRange margins symmetric
    (mem_reports_of_next here there) chosen tested
  rw [arrived]
  exact decrease

/-- An Armijo step that stays in its phase does not raise the barrier objective. -/
theorem phi_le_of_armijo (follows : e.Follows obs o first reports ending last)
    (exact : EigenExact solver) (inRange : e.setup.settings.InRange) (margins : e.Margins)
    (symmetric : ∀ r ∈ reports, r.HandsSymmetric e.setup) {k : Nat}
    (here : (visited reports ending last)[k]? = some s)
    (there : (visited reports ending last)[k + 1]? = some s')
    (armijo : s.leftBy e.setup = some .armijo) (phase : s'.mu = s.mu) :
    (s'.measures e.setup).phi ≤ (s.measures e.setup).phi := by
  obtain ⟨dir, acc, eval, chosen, kind⟩ := State.chosen_of_leftBy armijo
  obtain ⟨alpha_pos, slope_neg, decrease⟩ := follows.decrease_to_next exact inRange margins
    symmetric here there chosen (by rw [kind]; decide)
  have promised : e.setup.settings.etaPhi * acc.alpha
      * barrierSlope s.eval s.curr dir e.setup.bounds s.mu ≤ 0 :=
    mul_nonpos_of_nonneg_of_nonpos (mul_nonneg inRange.etaPhi.1 alpha_pos.le) slope_neg.le
  rw [← phase] at decrease promised
  exact decrease.trans (add_le_of_nonpos_right promised)

theorem descent (follows : e.Follows obs o first reports ending last) (exact : EigenExact solver)
    (inRange : e.setup.settings.InRange) (margins : e.Margins)
    (symmetric : ∀ r ∈ reports, r.HandsSymmetric e.setup) :
    BarrierDescent e.setup (visited reports ending last) := by
  refine ⟨?_, ?_, ?_, ?_⟩
  · obtain ⟨reported, left⟩ := follows.unfiltered exact inRange margins symmetric
    intro s member
    obtain member | rfl := mem_visited member
    · exact reported s member
    · exact left
  · intro k s t kind here there left
    exact follows.kind_at exact inRange margins symmetric (mem_reports_of_next here there) left
  · intro k s t dir acc eval here there chosen tested
    exact follows.decrease_to_next exact inRange margins symmetric here there chosen tested
  · intro k m s t order here
    induction m, order using Nat.le_induction generalizing t with
    | base =>
      intro there _ _
      rw [Option.some.inj (here.symm.trans there)]
    | succ m order ih =>
      intro there same armijo
      obtain ⟨r, between⟩ := exists_getElem?_of_le (Nat.le_succ m) there
      -- the parameter does not grow, so between two states of one phase it does not change
      have phase : r.mu = s.mu := le_antisymm (follows.mu_antitone margins order here between)
        (same.ge.trans (follows.mu_antitone margins (Nat.le_succ m) between there))
      have earlier := ih r between phase fun j r' from_k below_m =>
        armijo j r' from_k (below_m.trans (Nat.lt_succ_self m))
      have last_step := follows.phi_le_of_armijo exact inRange margins symmetric between there
        (armijo m r order (Nat.lt_succ_self m) between) (same.trans phase.symm)
      exact last_step.trans earlier

end Follows

/-- However often an engine has run, its filter is empty. -/
theorem unfiltered_of_reaches {e₀ : Engine ℝ σ ⟨n, 0, 0⟩} (exact : EigenExact solver)
    (inRange : e₀.setup.settings.InRange) (margins : e₀.Margins) (symmetric : e₀.HandsSymmetric)
    (fresh : e₀.state.filter.entries = []) (runs : e₀.Reaches e) :
    e.state.filter.entries = [] := by
  induction runs with
  | refl => exact fresh
  | @run e before ω obs o ih =>
    rcases started : (startingProcedure e.setup).outcome e.opened with ⟨cause | _, first⟩
    · rw [filter_of_failed_start obs o started]
      exact ih
    · obtain ⟨reports, ending, last, follows⟩ := e.run_follows obs o started
      obtain ⟨w, state⟩ := follows.state
      rw [← before.setup_eq] at inRange
      rw [state]
      exact (follows.unfiltered exact inRange (margins.of_reaches before)
        (symmetric e before _ obs o first reports ending last follows)).2

end Engine

/-- In every run on an unconstrained problem with symmetric Hessians the filter stays empty, every
step is tiny or an Armijo step, and the barrier objective does not grow along the Armijo steps of a
phase. -/
theorem unconstrained_run_descends (exact : EigenExact solver) {p : Problem ℝ σ ⟨n, 0, 0⟩}
    {settings : InteriorSettings ℝ} (inRange : settings.InRange) {e₀ e : Engine ℝ σ ⟨n, 0, 0⟩}
    {w w' : World ℝ σ} (created : (Engine.create p settings).outcome w = (.ok e₀, w'))
    (symmetric : e₀.HandsSymmetric) (runs : e₀.Reaches e) :
    e.state.filter.entries = [] ∧
      ∀ {ω : Type} (obs : Observer ℝ ⟨n, 0, 0⟩ ω) (o : ω) (first : State ℝ σ ⟨n, 0, 0⟩),
        (startingProcedure e.setup).outcome e.opened = (.ok (), first) →
        first.filter.entries = [] ∧
          ∃ reports ending last, e.Follows obs o first reports ending last ∧
            BarrierDescent e.setup (visited reports ending last) := by
  obtain ⟨rfl, rfl, -, own, w₀, state⟩ := Engine.create_ok inRange created
  have margins : e₀.Margins := by
    rw [Engine.Margins, state]
    exact ⟨rfl, rfl⟩
  have fresh : e₀.state.filter.entries = [] := by
    rw [state]
    rfl
  refine ⟨Engine.unfiltered_of_reaches exact inRange margins symmetric fresh runs, ?_⟩
  intro ω obs o first started
  have emptied := (startingProcedure_filter e.setup _).ok e.opened_filter started
  refine ⟨by rw [emptied]; rfl, ?_⟩
  obtain ⟨reports, ending, last, follows⟩ := e.run_follows obs o started
  refine ⟨reports, ending, last, follows, ?_⟩
  rw [← runs.setup_eq] at inRange
  exact follows.descent exact inRange (margins.of_reaches runs)
    (symmetric e runs _ obs o first reports ending last follows)

end Unconstrained

end Runs

open scoped Linear.Exact

/-- On the ray the objective descends from the first report over the second to the state that is
left. -/
theorem ray_run_descends : ∃ first r₀ r₁ last,
    (Ray.engine 10 1e-8).Follows Observer.silent () first [r₀, r₁] (.error (.evaluation .gradient))
      last ∧
    (Ray.engine 10 1e-8).HandsSymmetric ∧ BarrierDescent (Ray.setup 10 1e-8) [r₀, r₁, last] := by
  have positive : (0 : ℝ) < 1e-8 := by norm_num
  -- a matrix with one entry is symmetric
  have symmetric : (Ray.engine 10 1e-8).HandsSymmetric := by
    intro e _ ω obs o first reports ending last _ r _ dir s' _ i j
    rw [Subsingleton.elim i j]
  obtain ⟨first, r₀, r₁, last, follows, -⟩ := Ray.failing_run Exact.exactSolver_exact
  obtain ⟨-, descends⟩ := unconstrained_run_descends Exact.exactSolver_exact
    (Ray.settings_inRange positive) (Ray.created 10 1e-8) symmetric .refl
  obtain ⟨-, reports, ending, last', follows', descent⟩ :=
    descends Observer.silent () first follows.start
  obtain ⟨rfl, rfl, rfl⟩ := follows.unique follows'
  exact ⟨first, r₀, r₁, last', follows, symmetric, descent⟩

end Barrier

end SmoothOpt
