import Mathlib
import SmoothOpt.Proofs.Linear.Spectral
import SmoothOpt.Proofs.Penalty.Course

/-!
The history of a run of the augmented Lagrangian method.

Consecutive reports are one `Passage` apart, so what a report shows has a closed form in its number:
the penalty parameter that of its growth rule, the multipliers the sum of all steps `p / ρ` so far.
The counts of the result are those of the subproblems that were solved.
-/
namespace SmoothOpt.Penalty

open Scalar Linear

section Schedule

variable {rho rho0 rhoMax increase a b : ℝ}

/-- Bounded growth of a parameter that is at its starting value, on its way to the cap or at the
cap. -/
theorem updatedPenalty_bounded (below : rho0 ≤ a) (increase_ge : 1 ≤ increase) (nonneg : 0 ≤ a)
    (cap_nonneg : 0 ≤ rhoMax) :
    updatedPenalty .boundedGeometric (max rho0 (min a rhoMax)) increase rhoMax =
      max rho0 (min (increase * a) rhoMax) := by
  have scaled : a ≤ increase * a := le_mul_of_one_le_left nonneg increase_ge
  have scaled_cap : rhoMax ≤ increase * rhoMax := le_mul_of_one_le_left cap_nonneg increase_ge
  simp only [updatedPenalty, maxNum_real, minNum_real]
  obtain above | under := le_total rhoMax rho0
  · -- a start above the cap stays where it is
    have capped (v : ℝ) : max rho0 (min v rhoMax) = rho0 :=
      max_eq_left ((min_le_right v rhoMax).trans above)
    rw [capped, capped, max_comm, capped]
  · have low (v : ℝ) (le : rho0 ≤ v) : max rho0 (min v rhoMax) = min v rhoMax :=
      max_eq_right (le_min le under)
    rw [low a below, low _ (below.trans scaled), mul_min_of_nonneg _ _ (by linarith), min_assoc,
      min_eq_right scaled_cap]
    exact max_eq_left (min_le_min_right rhoMax scaled)

/-- Saturating growth scales both a grown starting value and a grown cap. -/
theorem updatedPenalty_saturating (increase_ge : 1 ≤ increase) (reached : rhoMax ≤ increase * b) :
    updatedPenalty .saturating (max a b) increase rhoMax = max (increase * a) (increase * b) := by
  simp only [updatedPenalty, maxNum_real]
  rw [mul_max_of_nonneg _ _ (by linarith), max_assoc, max_eq_left reached]

/-- The penalty parameter never decreases. -/
theorem le_updatedPenalty (growth : PenaltyGrowth) (nonneg : 0 ≤ rho) (increase_ge : 1 ≤ increase) :
    rho ≤ updatedPenalty growth rho increase rhoMax := by
  cases growth with
  | boundedGeometric =>
    rw [updatedPenalty, maxNum_real]
    exact le_max_right _ _
  | saturating =>
    rw [updatedPenalty, maxNum_real]
    exact (le_mul_of_one_le_left nonneg increase_ge).trans (le_max_left _ _)

end Schedule

section Runs

variable {σ ω : Type} {d : Dims} [DenseSolver ℝ]

/-- What the reports of a run show. -/
structure ReportHistory (c : Setup ℝ σ d) (reports : List (State ℝ σ d)) : Prop where
  numbered : ∀ k (_ : k < reports.length), reports[k].info.iter = k
  published : ∀ r ∈ reports, r.Published
  bounded : c.settings.growth = .boundedGeometric → ∀ k (_ : k < reports.length),
    reports[k].info.rho = max c.settings.rho0
      (min (c.settings.rhoIncrease ^ k * c.settings.rho0) c.settings.rhoMax)
  saturating : c.settings.growth = .saturating → ∀ k (_ : k + 1 < reports.length),
    reports[k + 1].info.rho = max (c.settings.rhoIncrease ^ (k + 1) * c.settings.rho0)
      (c.settings.rhoIncrease ^ k * c.settings.rhoMax)
  started : ∀ r ∈ reports.head?, r.info.rho = c.settings.rho0
  grows : ∀ j k (_ : j ≤ k) (_ : k < reports.length), reports[j].info.rho ≤ reports[k].info.rho
  /-- Between two reports a subproblem is solved; the second has its point and the penalty vector
  there. -/
  solved : ∀ k (_ : k + 1 < reports.length), ∃ res, innerResult c reports[k] = some res ∧
    reports[k + 1].z = res.x ∧ reports[k + 1].Penalized c
  multipliers : ∀ k (_ : k < reports.length) i, reports[k].lambda.get i = c.settings.lambda0 +
    ∑ j : Fin k, reports[(j : ℕ) + 1].penalty.get i / reports[(j : ℕ)].rho

structure ResultCounts (c : Setup ℝ σ d) (reports : List (State ℝ σ d)) (res : SolveResult ℝ d) :
    Prop where
  statuses : res.info.innerStatuses = (solves c res.status reports).map (·.status)
  length : res.info.innerStatuses.length = res.info.iters
  innerIters : res.info.innerIters = ((solves c res.status reports).map (·.info.iters)).sum
  bounded : res.info.iters ≤ c.settings.maxIter
  spent : res.status = .maxIterExceeded → res.info.iters = c.settings.maxIter

section Reports

variable {c : Setup ℝ σ d} {reports : List (State ℝ σ d)}
  (first : ∀ r ∈ reports.head?, r.Ready c ∧ r.iter = 0) (chain : reports.IsChain (Passage c))

include first

omit [DenseSolver ℝ] in
theorem first_report (some : 0 < reports.length) : reports[0].Ready c ∧ reports[0].iter = 0 :=
  first _ (by rw [List.head?_eq_getElem?, List.getElem?_eq_getElem some]; rfl)

include chain

theorem iter_report (k : ℕ) (here : k < reports.length) : reports[k].iter = k := by
  induction k with
  | zero => exact (first_report first here).2
  | succ k ih => rw [(chain.getElem k here).iter, ih (by omega)]

theorem published_report {r : State ℝ σ d} (member : r ∈ reports) : r.Published := by
  obtain ⟨k, here, rfl⟩ := List.getElem_of_mem member
  cases k with
  | zero => exact (first_report first here).1.published
  | succ k => exact (chain.getElem k here).published

/-- The multipliers have moved by every penalty vector over the parameter it was found with. -/
theorem lambda_report (i : Fin (entryCount d)) (k : ℕ) (here : k < reports.length) :
    reports[k].lambda.get i = c.settings.lambda0 +
      ∑ j : Fin k, reports[(j : ℕ) + 1].penalty.get i / reports[(j : ℕ)].rho := by
  induction k with
  | zero =>
    rw [(first_report first here).1.lambda]
    simp
  | succ k ih =>
    rw [(chain.getElem k here).lambda, updatedMultipliers, get_zipWith, ih (by omega),
      Fin.sum_univ_castSucc]
    exact add_assoc _ _ _

section Growth

variable (rho0_pos : 0 < c.settings.rho0) (rhoMax_pos : 0 < c.settings.rhoMax)
  (increase_ge : 1 ≤ c.settings.rhoIncrease)

include rho0_pos increase_ge

omit rhoMax_pos in
theorem rho_pos_report (k : ℕ) (here : k < reports.length) : 0 < reports[k].rho := by
  induction k with
  | zero =>
    rw [(first_report first here).1.rho]
    exact rho0_pos
  | succ k ih =>
    rw [(chain.getElem k here).rho]
    exact (ih (by omega)).trans_le (le_updatedPenalty _ (ih (by omega)).le increase_ge)

theorem rho_grows {j k : ℕ} (order : j ≤ k) (here : k < reports.length) :
    reports[j].rho ≤ reports[k].rho := by
  induction k, order using Nat.le_induction with
  | base => exact le_rfl
  | succ k order ih =>
    have positive := rho_pos_report first chain rho0_pos increase_ge k (by omega)
    rw [(chain.getElem k here).rho]
    exact (ih (by omega)).trans (le_updatedPenalty _ positive.le increase_ge)

include rhoMax_pos

theorem rho_bounded (growth : c.settings.growth = .boundedGeometric) (k : ℕ)
    (here : k < reports.length) : reports[k].rho = max c.settings.rho0
      (min (c.settings.rhoIncrease ^ k * c.settings.rho0) c.settings.rhoMax) := by
  induction k with
  | zero =>
    rw [(first_report first here).1.rho, pow_zero, one_mul]
    exact (max_eq_left (min_le_left _ _)).symm
  | succ k ih =>
    have grown : c.settings.rho0 ≤ c.settings.rhoIncrease ^ k * c.settings.rho0 :=
      le_mul_of_one_le_left rho0_pos.le (one_le_pow₀ increase_ge)
    rw [(chain.getElem k here).rho, ih (by omega), growth,
      updatedPenalty_bounded grown increase_ge (rho0_pos.le.trans grown) rhoMax_pos.le, pow_succ',
      mul_assoc]

omit rho0_pos in
theorem rho_saturating (growth : c.settings.growth = .saturating) (k : ℕ)
    (here : k + 1 < reports.length) :
    reports[k + 1].rho = max (c.settings.rhoIncrease ^ (k + 1) * c.settings.rho0)
      (c.settings.rhoIncrease ^ k * c.settings.rhoMax) := by
  induction k with
  | zero =>
    rw [(chain.getElem 0 here).rho, (first_report first (by omega)).1.rho, growth, updatedPenalty,
      maxNum_real, zero_add, pow_one, pow_zero, one_mul]
  | succ k ih =>
    have reached : c.settings.rhoMax ≤
        c.settings.rhoIncrease * (c.settings.rhoIncrease ^ k * c.settings.rhoMax) := by
      rw [← mul_assoc, ← pow_succ']
      exact le_mul_of_one_le_left rhoMax_pos.le (one_le_pow₀ increase_ge)
    rw [(chain.getElem (k + 1) here).rho, ih (by omega), growth,
      updatedPenalty_saturating increase_ge reached, ← mul_assoc, ← mul_assoc, ← pow_succ',
      ← pow_succ']

theorem reports_history : ReportHistory c reports where
  numbered := iter_report first chain
  published := fun r member => published_report first chain member
  bounded := rho_bounded first chain rho0_pos rhoMax_pos increase_ge
  saturating := rho_saturating first chain rhoMax_pos increase_ge
  started := fun r here => (first r here).1.rho
  grows := fun j k order here => rho_grows first chain rho0_pos increase_ge order here
  solved := by
    intro k here
    obtain ⟨res, found, taken⟩ := (chain.getElem k here).solved
    rw [if_pos (allFinite_real _)] at taken
    exact ⟨res, found, taken, (chain.getElem k here).penalized⟩
  multipliers := fun k here i => lambda_report first chain i k here

end Growth

end Reports

namespace Engine

variable {e : Engine ℝ σ d} {obs : Observer ℝ d ω} {o : ω} {reports : List (State ℝ σ d)}
  {status : Status} {last : State ℝ σ d}

theorem Follows.counts (follows : e.Follows obs o reports status last) :
    ResultCounts e.setup reports (e.run obs o).1 := by
  have tally := follows.path.tally e.opened_tally
  obtain ⟨bounded, spent⟩ := follows.path.budget e.opened_tally
  rw [follows.result]
  refine ⟨tally.innerStatuses, ?_, tally.innerIters, bounded, spent⟩
  calc last.innerStatuses.length
      = ((solves e.setup status reports).map (·.status)).length := by rw [tally.innerStatuses]
    _ = last.iter := by rw [List.length_map, tally.iter]

end Engine

/-- Every run of the augmented Lagrangian method, from whatever state its engine is in: each report
shows its number, the multipliers and the penalty parameter its number determines, and a view that
has them too; and however the run ends, its result counts the subproblems that were solved, within
the budget. -/
theorem penalty_run_history (e : Engine ℝ σ d) (rho0_pos : 0 < e.setup.settings.rho0)
    (rhoMax_pos : 0 < e.setup.settings.rhoMax) (increase_ge : 1 ≤ e.setup.settings.rhoIncrease)
    (obs : Observer ℝ d ω) (o : ω) :
    ∃ reports status last, e.Follows obs o reports status last ∧
      ReportHistory e.setup reports ∧ ResultCounts e.setup reports (e.run obs o).1 := by
  obtain ⟨reports, status, last, follows⟩ := e.run_follows obs o
  have first := follows.path.first e.opened_tally
  exact ⟨reports, status, last, follows,
    reports_history first follows.path.chain rho0_pos rhoMax_pos increase_ge, follows.counts⟩

end Runs

open scoped Linear.Exact

namespace Infeasible

/-- Nothing to minimize, and an equality that every point violates by one. -/
noncomputable def problem : Problem ℝ Unit ⟨1, 1, 0⟩ where
  variableBounds := pure (.good (single (-1e20), single 1e20))
  inequalityBounds := pure (.good (noEntries, noEntries))
  start := pure (.good (single 0))
  objective _ _ := pure (.good 0)
  gradient _ _ := pure (.good (single 0))
  equalities _ _ := pure (.good (single 1))
  inequalities _ _ := pure (.good noEntries)
  equalityJacobian _ _ := pure (.good (single (single 0)))
  inequalityJacobian _ _ := pure (.good noEntries)
  providesHessian := true
  hessian _ _ _ _ _ := pure (.good (single (single 0)))

noncomputable def setup : Setup ℝ Unit ⟨1, 1, 0⟩ := ⟨problem, .default⟩

noncomputable def box : Box ℝ 1 := ⟨single ⟨-1e20, false⟩, single ⟨1e20, false⟩⟩

noncomputable def engine : Engine ℝ Unit ⟨1, 1, 0⟩ :=
  ⟨setup, .initial .default ⟨box, single 0, single 0, 1⟩ ⟨(), []⟩⟩

variable {s t : State ℝ Unit ⟨1, 1, 0⟩}

/-- Every point has a unit penalty. -/
theorem penalty_eq (penalized : s.Penalized setup) (k : Fin 1) : s.penalty.get k = 1 := by
  obtain ⟨e, answers, penalty, -⟩ := penalized
  rw [penalty, penaltyVector, answers.eq.eq_of_written rfl,
    Subsingleton.elim k (Fin.castAdd 0 (0 : Fin 1)), get_append_castAdd]
  rfl

theorem errFeas_eq (penalized : s.Penalized setup) : s.errFeas = 1 := by
  have unit := penalty_eq penalized
  obtain ⟨-, -, -, feas⟩ := penalized
  rw [feas]
  apply le_antisymm
  · rw [infNorm_le_iff]
    refine ⟨zero_le_one, fun k => ?_⟩
    rw [unit, abs_one]
  · have entries := ((infNorm_le_iff s.penalty _).mp le_rfl).2 (0 : Fin 1)
    rwa [unit, abs_one] at entries

/-- With a unit error no test of the default parameters stops a run early. -/
theorem check_undecided {errors : List ℝ} (optim : ℝ) {iter : ℕ} (count : ℕ) (early : iter < 1000)
    (reference : ∀ e ∈ errors.head?, e = 1) :
    (({ Termination.ofPenalty setup.settings with
      initialErrors := errors, acceptableCount := count } : Termination ℝ).check
        [1, optim] iter).1 = none := by
  obtain ⟨tolerance, relative, acceptable⟩ : ¬1 ≤ setup.settings.tolerance ∧
      ¬1 ≤ setup.settings.relTolerance ∧ ¬1 ≤ setup.settings.acceptableTolerance := by
    norm_num [setup, PenaltySettings.default]
  apply Termination.check_none
  · simp [Termination.allWithin, Termination.ofPenalty, tolerance]
  · exact early
  · cases errors with
    | nil => simp [Termination.relativelySmall]
    | cons e errors =>
      obtain rfl := reference e rfl
      simp [Termination.relativelySmall, Termination.ofPenalty, relative]
  · simp [Termination.allWithin, Termination.ofPenalty, acceptable]

theorem created {view : View ℝ ⟨1, 1, 0⟩} (free : view.box = box) (w : World ℝ Unit) :
    ∃ e w', (Barrier.Engine.create (view.problem setup.problem) setup.settings.inner).outcome w =
      (.ok e, w') := by
  have queried : (Bounds.ofProblem (view.problem setup.problem)
      (.ofSettings setup.settings.inner)).run w.problem =
      (Bounds.ofRaw (d := boxed ⟨1, 1, 0⟩) (.ofSettings setup.settings.inner)
        (view.box.lower.map fun b => if b.present then b.value else -infinity)
        (view.box.upper.map fun b => if b.present then b.value else infinity)
        (Vector.replicate 0 (-infinity)) (Vector.replicate 0 infinity), w.problem) := rfl
  have ordered : ¬(infinity : ℝ) < -infinity := by
    norm_num [infinity]
  have faultless : Bounds.firstFault (Bounds.variableFault (.ofSettings setup.settings.inner))
      (view.box.lower.map fun b => if b.present then b.value else -infinity)
      (view.box.upper.map fun b => if b.present then b.value else infinity) = none := by
    rw [free]
    simp [Bounds.firstFault, List.finRange_succ, Bounds.variableFault, Vector.get, ordered, box,
      Bounds.FixedRule.ofSettings, setup, PenaltySettings.default]
  have valid : (Dims.validate (boxed ⟨1, 1, 0⟩) : Except (ProblemFault ℝ) Unit) = .ok () := rfl
  have own : Barrier.Engine.useExact (view.problem setup.problem) setup.settings.inner =
      .ok true := rfl
  simp only [Barrier.Engine.create, Step.outcome_ofOutcome, valid, queried, Bounds.ofRaw, faultless,
    own]
  exact ⟨_, _, rfl⟩

/-- On a free variable a major iteration does not fail. -/
theorem major_succeeds (free : s.view.box = box) :
    ∃ verdict t, (major setup).outcome s = (.ok verdict, t) := by
  obtain ⟨e, w', created⟩ := created free s.world
  refine major_succeeds_of (fun _ => rfl) (fun _ => rfl) ?_
  rw [innerResult, created]
  exact Option.some_ne_none _

def stopper : Observer ℝ ⟨1, 1, 0⟩ Unit where
  onIteration info _ := (decide (2 ≤ info.iter), ())
  onSolution _ _ := ()

/-- A state from which the method goes on: the variable is free, and the stopping tests are the
default ones, relative to a unit error. -/
structure Going (s : State ℝ Unit ⟨1, 1, 0⟩) : Prop where
  free : s.view.box = box
  tests : ∃ errors count, (∀ e ∈ errors.head?, e = 1) ∧ s.termination =
    { Termination.ofPenalty setup.settings with initialErrors := errors, acceptableCount := count }

theorem start_going : ∃ first, (prepare setup).outcome engine.opened = (.ok none, first) ∧
    Going first ∧ first.iter = 0 := by
  rcases start : (prepare setup).outcome engine.opened with ⟨f | verdict, first⟩
  · have succeeds : ((prepare setup).outcome engine.opened).1.isOk = true := rfl
    rw [start] at succeeds
    cases succeeds
  · have settled : (settle setup).outcome (engine.opened.placed setup #v[0]) =
        (.ok verdict, first) := by
      rw [← start, outcome_prepare]
      rfl
    obtain ⟨s₁, w, evaluated, undecided, rfl⟩ := settle_ok settled
    have unit := errFeas_eq evaluated.measured.penalized
    obtain ⟨free, counted⟩ : s₁.view.box = box ∧ s₁.iter = 0 := by
      obtain ⟨_, _, _, _, _, rfl⟩ := evaluated.touched
      exact ⟨rfl, rfl⟩
    obtain rfl : verdict = none := by
      rw [undecided, unit, counted]
      exact check_undecided _ 0 (by decide) nofun
    refine ⟨_, rfl, ⟨free, [s₁.errFeas, s₁.errOptim], 0, ?_, rfl⟩, counted⟩
    rintro e ⟨⟩
    exact unit

theorem Going.recordIteration (going : Going s) : Going (s.recordIteration setup) := by
  obtain ⟨w, recorded⟩ := s.recordIteration_eq setup
  rw [recorded]
  exact { going with }

/-- A major iteration goes on as long as the budget is not spent. -/
theorem Going.next (going : Going s) (early : s.iter + 1 < 1000) :
    ∃ t, (major setup).outcome s = (.ok none, t) ∧ Going t ∧ t.iter = s.iter + 1 := by
  obtain ⟨verdict, t, ran⟩ := major_succeeds going.free
  obtain ⟨res, u, took, measured, ⟨-, -, stops, -⟩ | ⟨decided, left⟩⟩ := major_ok ran
  · cases stops
  · obtain ⟨errors, count, reference, tests⟩ := going.tests
    obtain ⟨count', same⟩ := took.termination
    rw [tests] at same
    obtain rfl : verdict = none := by
      have undecided := check_undecided u.errOptim count' (took.iter ▸ early) reference
      rw [← errFeas_eq measured.penalized, ← same] at undecided
      exact decided.trans undecided
    obtain ⟨_, v, moved, -, rfl⟩ := major_next ran
    obtain ⟨count'', kept⟩ := moved.termination
    rw [tests] at kept
    refine ⟨_, ran, ⟨?_, errors, count'', reference, kept⟩, moved.iter⟩
    exact (congrArg View.box moved.view).trans going.free

/-- A course goes on until the observer stops it. -/
theorem Going.stepped {last : State ℝ Unit ⟨1, 1, 0⟩} {left : ℕ}
    {reports : List (State ℝ Unit ⟨1, 1, 0⟩)} {ending : Except (Failure ℝ) Status} {o o' : Unit}
    (going : Going s) (early : s.iter < 2)
    (course : Course setup stopper (left + 1) s o reports ending last o') :
    ∃ t rest, reports = s.recordIteration setup :: rest ∧ Going t ∧ t.iter = s.iter + 1 ∧
      Course setup stopper left t () rest ending last o' := by
  have unmoved := (s.recordIteration_keeps setup).1
  obtain ⟨t, step, going_on, counted⟩ := going.recordIteration.next (by omega)
  rw [unmoved] at counted
  cases course with
  | stopped answer =>
    have reached : 2 ≤ (s.recordIteration setup).iter :=
      of_decide_eq_true (congrArg Prod.fst answer)
    omega
  | failed answer failed => cases step.symm.trans failed
  | decided answer decided => cases step.symm.trans decided
  | stepped answer taken rest =>
    cases step.symm.trans taken
    exact ⟨_, _, rfl, going_on, counted, rest⟩

/-- The run makes three reports. -/
theorem follows_three {reports : List (State ℝ Unit ⟨1, 1, 0⟩)} {status : Status}
    {last : State ℝ Unit ⟨1, 1, 0⟩} (follows : engine.Follows stopper () reports status last) :
    status = .userStopped ∧ ∃ r₀ r₁, reports = [r₀, r₁, last] := by
  obtain ⟨first, started, going, counted⟩ := start_going
  cases follows.path with
  | startFailed start => cases started.symm.trans start
  | startDecided start => cases started.symm.trans start
  | looped start course =>
    cases started.symm.trans start
    obtain ⟨left, budget⟩ : ∃ left, engine.setup.settings.maxIter = left + 1 + 1 + 1 := ⟨997, rfl⟩
    rw [budget] at course
    obtain ⟨t₁, rest₁, rfl, going₁, counted₁, course₁⟩ := going.stepped (by omega) course
    obtain ⟨t₂, rest₂, rfl, -, counted₂, course₂⟩ := going₁.stepped (by omega) course₁
    have unmoved := (t₂.recordIteration_keeps setup).1
    cases course₂ with
    | stopped => exact ⟨rfl, _, _, rfl⟩
    | failed answer | decided answer | stepped answer =>
      have unreached : ¬2 ≤ (t₂.recordIteration setup).iter :=
        of_decide_eq_false (congrArg Prod.fst answer)
      omega

end Infeasible

/-- An observer that stops at the third report finds the parameters moved twice, and the result
counts two subproblems. -/
theorem infeasible_run_history : ∃ r₀ r₁ r₂,
    Infeasible.engine.Follows Infeasible.stopper () [r₀, r₁, r₂] .userStopped r₂ ∧
    r₂.info.iter = 2 ∧ r₂.info.rho = 10000 ∧ r₂.lambda.get (0 : Fin 1) = 1 + (1 / 100 + 1 / 1000) ∧
    (Infeasible.engine.run Infeasible.stopper ()).1.info.iters = 2 := by
  have settings : Infeasible.engine.setup.settings = .default := rfl
  obtain ⟨reports, status, last, follows, history, counts⟩ := penalty_run_history Infeasible.engine
    (by norm_num [settings, PenaltySettings.default])
    (by norm_num [settings, PenaltySettings.default])
    (by norm_num [settings, PenaltySettings.default]) Infeasible.stopper ()
  obtain ⟨rfl, r₀, r₁, rfl⟩ := Infeasible.follows_three follows
  obtain ⟨res₀, found₀, -, penalized₁⟩ := history.solved 0 (by simp)
  obtain ⟨res₁, found₁, -, penalized₂⟩ := history.solved 1 (by simp)
  have rho₀ : r₀.rho = 100 := (history.bounded rfl 0 (by simp)).trans
    (by norm_num [settings, PenaltySettings.default])
  have rho₁ : r₁.rho = 1000 := (history.bounded rfl 1 (by simp)).trans
    (by norm_num [settings, PenaltySettings.default])
  refine ⟨r₀, r₁, last, follows, history.numbered 2 (by simp), ?_, ?_, ?_⟩
  · exact (history.bounded rfl 2 (by simp)).trans (by norm_num [settings, PenaltySettings.default])
  · have moved := history.multipliers 2 (by simp) (0 : Fin 1)
    rw [Fin.sum_univ_two] at moved
    have steps : r₁.penalty.get (0 : Fin 1) / r₀.rho + last.penalty.get (0 : Fin 1) / r₁.rho =
        1 / 100 + 1 / 1000 := by
      have unit₁ : r₁.penalty.get (0 : Fin 1) = 1 := Infeasible.penalty_eq penalized₁ 0
      have unit₂ : last.penalty.get (0 : Fin 1) = 1 := Infeasible.penalty_eq penalized₂ 0
      rw [unit₁, unit₂, rho₀, rho₁]
    exact moved.trans (congrArg (1 + ·) steps)
  · have stopped : (Infeasible.engine.run Infeasible.stopper ()).1.status = .userStopped := by
      rw [follows.result]
      rfl
    have solved : solves Infeasible.engine.setup .userStopped [r₀, r₁, last] = [res₀, res₁] := by
      rw [solves, if_pos rfl]
      exact (List.filterMap_cons_some found₀).trans
        (congrArg _ (List.filterMap_cons_some found₁))
    rw [← counts.length, counts.statuses, stopped, solved]
    rfl

end SmoothOpt.Penalty
