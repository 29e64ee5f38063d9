import Mathlib
import SmoothOpt.Proofs.Barrier.Halfway

/-!
The history a filter records.

A barrier phase is a stretch of iterations with one barrier parameter. The filter holds the pairs of
violation and barrier objective of those iterates of the phase that were left by a filter step. The
pair of an iterate is recorded when it is left, so that the very next iterate was tested against
fewer pairs than all later ones: it improves on the pair it leaves by its own test, and the later
ones improve on it strictly because the filter does not dominate them. Armijo steps record nothing
but are tested against the filter; tiny steps are neither recorded nor tested.
-/
namespace SmoothOpt

open Scalar Linear

/-- A pair that the filter does not dominate improves on every recorded pair in one measure. -/
theorem Filter.improves_of_not_dominated {f : Filter ℝ} {theta phi : ℝ}
    (free : f.dominates theta phi = false) {pair : ℝ × ℝ} (member : pair ∈ f.entries) :
    theta < (1 - f.gammaTheta) * pair.1 ∨ phi < pair.2 - f.gammaPhi * pair.1 := by
  have test := List.any_eq_false.mp free pair member
  simp only [Bool.and_eq_true, decide_eq_true_eq, not_and_or, not_le] at test
  exact test

/-- An accepted trial respects the cap of the violation and is not dominated. Accepted as a filter
step, it improves on the current point in one measure. -/
theorem LineSearch.accept_some {l : LineSearch ℝ} {filter : Filter ℝ} {current trial : Measures ℝ}
    {alpha slope : ℝ} {kind : StepKind}
    (h : l.accept filter current trial alpha slope = some kind) :
    trial.theta ≤ l.thetaMax ∧ filter.dominates trial.theta trial.phi = false ∧
      (kind = .filter → trial.theta ≤ (1 - l.gammaTheta) * current.theta ∨
        trial.phi ≤ current.phi - l.gammaPhi * current.theta) := by
  unfold accept at h
  split at h
  · cases h
  · rename_i fits
    split at h
    · cases h
    · rename_i free
      have capped : trial.theta ≤ l.thetaMax := by simpa using fits
      refine ⟨capped, by simpa using free, ?_⟩
      rintro rfl
      split at h
      · split at h
        · cases h
        · cases h
      · split at h
        · assumption
        · cases h

namespace Barrier

variable {α σ ω : Type} [Scalar α] {d : Dims}

namespace State

/-- Violation and barrier objective of the current point, the latter for a given parameter. -/
def measuresAt (s : State α σ d) (c : Setup α σ d) (mu : α) : Measures α :=
  ⟨violation s.eval s.curr, barrierObjective s.eval s.curr c.bounds mu⟩

variable [DenseSolver α]

/-- The kind of step the engine takes from a state, if it can choose one. -/
def leftBy (s : State α σ d) (c : Setup α σ d) : Option StepKind :=
  match ((chooseStep c).outcome s).1 with
  | .ok (_, acc, _) => some acc.kind
  | .error _ => none

variable {c : Setup α σ d} {s : State α σ d} {kind : StepKind}

theorem leftBy_of_chosen {dir : Direction α d} {acc : Accepted α} {e : Evaluation α d}
    (chosen : Chosen c s dir acc e) : s.leftBy c = some acc.kind := by
  rw [leftBy, chosen.step]

theorem chosen_of_leftBy (left : s.leftBy c = some kind) :
    ∃ dir acc e, Chosen c s dir acc e ∧ acc.kind = kind := by
  rcases chose : (chooseStep c).outcome s with ⟨f | ⟨dir, acc, e⟩, s'⟩
  · rw [leftBy, chose] at left
    cases left
  · rw [leftBy, chose, Option.some.injEq] at left
    exact ⟨dir, acc, e, Chosen.of_chooseStep chose, left⟩

end State

section Phase

variable {c : Setup ℝ σ d} {theta0 : ℝ} {before : List (State ℝ σ d)} {s s' : State ℝ σ d}
  [DenseSolver ℝ]

/-- The pairs of those states with parameter `mu` that were left by a filter step, in order. -/
noncomputable def phaseEntries (c : Setup ℝ σ d) (mu : ℝ) (l : List (State ℝ σ d)) :
    List (ℝ × ℝ) :=
  l.filterMap fun s =>
    if s.mu = mu ∧ s.leftBy c = some .filter then
      some ((s.measures c).theta, (s.measures c).phi)
    else none

theorem phaseEntries_concat (mu : ℝ) (l : List (State ℝ σ d)) (s : State ℝ σ d) :
    phaseEntries c mu (l ++ [s]) = phaseEntries c mu l ++
      if s.mu = mu ∧ s.leftBy c = some .filter then
        [((s.measures c).theta, (s.measures c).phi)]
      else [] := by
  rw [phaseEntries, List.filterMap_append]
  congr 1
  by_cases recorded : s.mu = mu ∧ s.leftBy c = some .filter
  · simp only [List.filterMap_cons, if_pos recorded, List.filterMap_nil]
  · simp only [List.filterMap_cons, if_neg recorded, List.filterMap_nil]

/-- Nothing is recorded of a phase without filter steps. -/
theorem phaseEntries_of_unfiltered {mu : ℝ} {l : List (State ℝ σ d)}
    (unfiltered : ∀ r ∈ l, r.mu = mu → r.leftBy c ≠ some .filter) : phaseEntries c mu l = [] := by
  rw [phaseEntries, List.filterMap_eq_nil_iff]
  intro r member
  rw [if_neg]
  rintro ⟨same, left⟩
  exact unfiltered r member same left

/-- A parameter below all earlier ones begins a phase. -/
theorem phaseEntries_eq_nil {mu : ℝ} {l : List (State ℝ σ d)} (below : ∀ r ∈ l, mu < r.mu) :
    phaseEntries c mu l = [] :=
  phaseEntries_of_unfiltered fun r member same => absurd same (below r member).ne'

theorem mem_phaseEntries {mu : ℝ} {l : List (State ℝ σ d)} (member : s ∈ l) (same : s.mu = mu)
    (left : s.leftBy c = some .filter) :
    ((s.measures c).theta, (s.measures c).phi) ∈ phaseEntries c mu l :=
  List.mem_filterMap.mpr ⟨s, member, if_pos ⟨same, left⟩⟩

/-- A state after the states `before` of a run that started with violation `theta0`: the barrier
parameter has not grown, the filter holds the pairs of the phase, and the state is where the step
from the last state led, if there was one. -/
structure InPhase (c : Setup ℝ σ d) (theta0 : ℝ) (before : List (State ℝ σ d)) (s : State ℝ σ d) :
    Prop where
  mu : ∀ r ∈ before, s.mu ≤ r.mu
  filter : s.filter = ⟨phaseEntries c s.mu before, c.settings.gammaTheta, c.settings.gammaPhi⟩
  search : s.lineSearch = .ofSettings c.settings theta0
  arrival : ∀ r dir acc e, before.getLast? = some r → Chosen c r dir acc e →
    s.measuresAt c r.mu = trialMeasures c r dir acc.alpha e

namespace InPhase

theorem checked (h : InPhase c theta0 before s) : InPhase c theta0 before s.checked.2 :=
  ⟨h.mu, h.filter, h.search, h.arrival⟩

/-- The barrier update begins a new phase or changes nothing that matters. -/
theorem reported (h : InPhase c theta0 before s) : InPhase c theta0 before (s.reported c) := by
  apply State.updateBarrier_preserves (P := InPhase c theta0 before)
  · intro t w _ h _ smaller
    have below : c.schedule.next t.mu < t.mu := not_le.mp smaller
    refine ⟨?_, ?_, h.search, h.arrival⟩
    · intro r member
      exact below.le.trans (h.mu r member)
    · have fresh : phaseEntries c (c.schedule.next t.mu) before = [] :=
        phaseEntries_eq_nil fun r member => below.trans_le (h.mu r member)
      simp only [State.lowered, fresh, h.filter, Filter.clear]
  · exact h.checked

theorem mu_concat (h : InPhase c theta0 before s) : ∀ r ∈ before ++ [s], s.mu ≤ r.mu := by
  intro r member
  obtain earlier | same := List.mem_append.mp member
  · exact h.mu r earlier
  · rw [List.mem_singleton.mp same]

/-- Nothing is recorded when no step was chosen. -/
theorem unmoved (h : InPhase c theta0 before s) (kept : s.Kept s') {f : Failure ℝ}
    (undecided : ((chooseStep c).outcome s).1 = .error f) :
    InPhase c theta0 (before ++ [s]) s' := by
  have unleft : s.leftBy c = none := by
    rw [State.leftBy, undecided]
  obtain ⟨w, k, m, t, rfl⟩ := kept
  refine ⟨h.mu_concat, ?_, h.search, ?_⟩
  · rw [phaseEntries_concat, if_neg (by simp [unleft]), List.append_nil]
    exact h.filter
  · intro r dir acc e last chosen
    rw [List.getLast?_concat, Option.some.injEq] at last
    subst last
    rw [chosen.step] at undecided
    cases undecided

/-- The pair of a state is recorded when it is left by a filter step, and the next state is measured
as its trial was. -/
theorem moved (h : InPhase c theta0 before s) {dir : Direction ℝ d} {acc : Accepted ℝ}
    {e e' : Evaluation ℝ d} (chosen : Chosen c s dir acc e) (same : e.SameValues e')
    {alphaDual : ℝ} (kept : (s.moveTo c dir acc e' alphaDual).Kept s') :
    InPhase c theta0 (before ++ [s]) s' := by
  have left := State.leftBy_of_chosen chosen
  obtain ⟨w, k, m, t, rfl⟩ := kept
  refine ⟨h.mu_concat, ?_, h.search, ?_⟩
  · simp only [State.moveTo, phaseEntries_concat, left, h.filter, Option.some.injEq, true_and]
    split
    · rfl
    · rw [List.append_nil]
  · intro r dir' acc' e₁ last chosen'
    rw [List.getLast?_concat, Option.some.injEq] at last
    subst last
    obtain ⟨rfl, rfl, rfl⟩ := chosen.unique chosen'
    simp only [State.measuresAt, State.moveTo, trialMeasures, violation, barrierObjective, same.f,
      same.eq, same.ineq]
    rfl

/-- Completing an iteration touches neither the filter nor what is measured. -/
theorem completed (h : InPhase c theta0 before s) (dir : Direction ℝ d) (acc : Accepted ℝ)
    (alphaDual : ℝ) : InPhase c theta0 before (s.complete c dir acc alphaDual) := by
  obtain ⟨w, y, completed⟩ := complete_eq s c dir acc alphaDual
  rw [completed]
  exact ⟨h.mu, h.filter, h.search, h.arrival⟩

theorem advanced (h : InPhase c theta0 before s) (step : (advance c).outcome s = (.ok (), s')) :
    InPhase c theta0 (before ++ [s]) s' := by
  obtain ⟨dir, acc, e, e', moved, chosen, same, -, kept, rfl⟩ := advance_ok step
  exact (h.moved chosen same kept).completed dir acc _

theorem failed (h : InPhase c theta0 before s) {f : Failure ℝ}
    (step : (advance c).outcome s = (.error f, s')) : InPhase c theta0 (before ++ [s]) s' := by
  obtain ⟨kept, -, undecided⟩ | ⟨dir, acc, e, e', q, chosen, same, -, -, kept⟩ := advance_error step
  · exact h.unmoved kept undecided
  · exact h.moved chosen same kept

theorem preserved (c : Setup ℝ σ d) (theta0 : ℝ) : Preserved c (InPhase c theta0) where
  check _ _ h := h.checked
  report _ _ h := h.reported
  step _ _ _ h step := h.advanced step

end InPhase

omit [DenseSolver ℝ] in
theorem mem_take_of_getElem? {l : List (State ℝ σ d)} {k m : Nat} (here : l[k]? = some s)
    (before : k < m) : s ∈ l.take m := by
  rw [List.mem_iff_getElem?]
  exact ⟨k, by rw [List.getElem?_take, if_pos before, here]⟩

omit [DenseSolver ℝ] in
/-- What comes before an entry of a list is an entry too. -/
theorem exists_getElem?_of_le {l : List (State ℝ σ d)} {k m : Nat} (order : k ≤ m)
    (there : l[m]? = some s) : ∃ r, l[k]? = some r := by
  have bound := (List.getElem?_eq_some_iff.mp there).1
  exact ⟨_, List.getElem?_eq_getElem (order.trans_lt bound)⟩

omit [DenseSolver ℝ] in
theorem take_succ_of_getElem? {l : List (State ℝ σ d)} {k : Nat} (here : l[k]? = some s) :
    l.take (k + 1) = l.take k ++ [s] := by
  rw [List.take_add_one, here, Option.toList_some]

/-- The states of a run from its first report on: the reports, and the state it was left in unless
that was reported already. -/
def visited (reports : List (State ℝ σ d)) (ending : Except (Failure ℝ) Status)
    (last : State ℝ σ d) : List (State ℝ σ d) :=
  match ending with
  | .ok .userStopped => reports
  | _ => reports ++ [last]

omit [DenseSolver ℝ] in
theorem visited_eq (reports : List (State ℝ σ d)) (ending : Except (Failure ℝ) Status)
    (last : State ℝ σ d) :
    visited reports ending last = reports ∨ visited reports ending last = reports ++ [last] := by
  unfold visited
  split
  · exact .inl rfl
  · exact .inr rfl

omit [DenseSolver ℝ] in
theorem mem_visited {reports : List (State ℝ σ d)} {ending : Except (Failure ℝ) Status}
    {last : State ℝ σ d} (member : s ∈ visited reports ending last) : s ∈ reports ∨ s = last := by
  obtain all | more := visited_eq reports ending last
  · exact .inl (all ▸ member)
  · rw [more, List.mem_append, List.mem_singleton] at member
    exact member

omit [DenseSolver ℝ] in
/-- A visited state that another one follows is a report. -/
theorem mem_reports_of_next {reports : List (State ℝ σ d)} {ending : Except (Failure ℝ) Status}
    {last : State ℝ σ d} {k : Nat} (here : (visited reports ending last)[k]? = some s)
    (there : (visited reports ending last)[k + 1]? = some s') : s ∈ reports := by
  obtain all | more := visited_eq reports ending last
  · rw [all] at here
    exact List.mem_of_getElem? here
  · rw [more] at here there
    have bound := (List.getElem?_eq_some_iff.mp there).1
    rw [List.length_append, List.length_singleton] at bound
    rw [List.getElem?_append_left (by omega)] at here
    exact List.mem_of_getElem? here

section Along

variable {e : Engine ℝ σ d} {obs : Observer ℝ d ω} {o : ω} {first last : State ℝ σ d}
  {reports : List (State ℝ σ d)} {ending : Except (Failure ℝ) Status}
  {P : List (State ℝ σ d) → State ℝ σ d → Prop}

theorem Engine.Follows.report_holds (follows : e.Follows obs o first reports ending last)
    (preserved : Preserved e.setup P) (beginning : P [] (first.headed e.setup)) {k : Nat}
    (here : reports[k]? = some s) : P (reports.take k) s := by
  obtain ⟨o', course⟩ := follows.course
  have cut : reports = reports.take k ++ s :: reports.drop (k + 1) := by
    obtain ⟨bound, rfl⟩ := List.getElem?_eq_some_iff.mp here
    rw [List.getElem_cons_drop, List.take_append_drop]
  exact course.reports_hold preserved [] beginning _ _ _ cut

/-- What passes preserve, the failed one included, holds of every visited state and of those visited
before it. -/
theorem Engine.Follows.visited_holds (follows : e.Follows obs o first reports ending last)
    (preserved : Preserved e.setup P)
    (failed : ∀ before r t f, P before r → (advance e.setup).outcome r = (.error f, t) →
      P (before ++ [r]) t)
    (beginning : P [] (first.headed e.setup)) {k : Nat}
    (here : (visited reports ending last)[k]? = some s) :
    P ((visited reports ending last).take k) s := by
  obtain ⟨o', course⟩ := follows.course
  have exit := course.exit_holds preserved [] beginning
  rw [List.nil_append] at exit
  have left : ending ≠ .ok .userStopped → P reports last := by
    intro other
    cases exit with
    | spent holds => exact holds
    | decided holds verdict => exact preserved.check _ _ holds
    | stopped holds => exact absurd rfl other
    | failed holds step => exact failed _ _ _ _ holds step
  unfold visited at here ⊢
  split at here
  · exact follows.report_holds preserved beginning here
  · rename_i other
    by_cases reported : k < reports.length
    · rw [List.getElem?_append_left reported] at here
      rw [List.take_append_of_le_length reported.le]
      exact follows.report_holds preserved beginning here
    · have last_one : k = reports.length := by
        have bound := (List.getElem?_eq_some_iff.mp here).1
        rw [List.length_append, List.length_singleton] at bound
        omega
      rw [last_one, List.getElem?_concat_length, Option.some.injEq] at here
      rw [last_one, List.take_left, ← here]
      exact left other

end Along

/-- In one measure `t` is better than `s` was by the margin for it, at the barrier parameter of
`s`. -/
def ImprovesOn (c : Setup ℝ σ d) (s t : State ℝ σ d) : Prop :=
  (t.measuresAt c s.mu).theta ≤ (1 - c.settings.gammaTheta) * (s.measures c).theta ∨
    (t.measuresAt c s.mu).phi ≤ (s.measures c).phi - c.settings.gammaPhi * (s.measures c).theta

/-- In one measure `t` is better than `s` was by more than the margin for it, at the barrier
parameter of `s`. -/
def StrictlyImprovesOn (c : Setup ℝ σ d) (s t : State ℝ σ d) : Prop :=
  (t.measuresAt c s.mu).theta < (1 - c.settings.gammaTheta) * (s.measures c).theta ∨
    (t.measuresAt c s.mu).phi < (s.measures c).phi - c.settings.gammaPhi * (s.measures c).theta

omit [DenseSolver ℝ] in
theorem StrictlyImprovesOn.improvesOn {t : State ℝ σ d} (h : StrictlyImprovesOn c s t) :
    ImprovesOn c s t := h.imp le_of_lt le_of_lt

omit [DenseSolver ℝ] in
/-- What improves on an infeasible state has another pair. -/
theorem ImprovesOn.ne (inRange : c.settings.InRange) {t : State ℝ σ d} (h : ImprovesOn c s t)
    (infeasible : 0 < (s.measures c).theta) : t.measuresAt c s.mu ≠ s.measures c := by
  intro met
  rw [ImprovesOn, met] at h
  obtain less | less := h
  · have margin := mul_pos inRange.gammaTheta.1 infeasible
    linarith
  · have margin := mul_pos inRange.gammaPhi.1 infeasible
    linarith

/-- What the filter of a run holds and what it enforces, for the states `l` of a run that started
with violation `theta0`. The step from one state to the next is of the kind the first is left by;
states belong to one phase when they have the same barrier parameter. -/
structure FilterHistory (c : Setup ℝ σ d) (theta0 : ℝ) (l : List (State ℝ σ d)) : Prop where
  /-- The filter holds the pairs of those states of the phase that were left by a filter step. -/
  entries : ∀ (k : Nat) (s : State ℝ σ d), l[k]? = some s →
    s.filter.entries = phaseEntries c s.mu (l.take k)
  descends : ∀ (k : Nat) (s t : State ℝ σ d), l[k]? = some s → l[k + 1]? = some t → t.mu ≤ s.mu
  grows : ∀ (k : Nat) (s t : State ℝ σ d), l[k]? = some s → l[k + 1]? = some t → t.mu = s.mu →
    s.filter.entries <+: t.filter.entries
  emptied : ∀ (k : Nat) (s t : State ℝ σ d), l[k]? = some s → l[k + 1]? = some t → t.mu < s.mu →
    t.filter.entries = []
  capped : ∀ (k : Nat) (s t : State ℝ σ d) (kind : StepKind), l[k]? = some s →
    l[k + 1]? = some t → s.leftBy c = some kind → kind ≠ .tiny →
    violation t.eval t.curr ≤ 1e4 * max 1 theta0
  improved : ∀ (k : Nat) (s t : State ℝ σ d), l[k]? = some s → l[k + 1]? = some t →
    s.leftBy c = some .filter → ImprovesOn c s t
  /-- A later tested step of the phase leads away from that pair strictly. -/
  separated : ∀ (k m : Nat) (s r t : State ℝ σ d) (kind : StepKind), l[k]? = some s →
    s.leftBy c = some .filter → k < m → l[m]? = some r → l[m + 1]? = some t → r.mu = s.mu →
    r.leftBy c = some kind → kind ≠ .tiny → StrictlyImprovesOn c s t
  /-- The pair of an infeasible state left by a filter step is not met again in its phase. -/
  unrepeated : ∀ (k m : Nat) (s r t : State ℝ σ d) (kind : StepKind), l[k]? = some s →
    s.leftBy c = some .filter → 0 < (s.measures c).theta → k ≤ m → l[m]? = some r →
    l[m + 1]? = some t → r.mu = s.mu → r.leftBy c = some kind → kind ≠ .tiny →
    t.measuresAt c s.mu ≠ s.measures c

namespace InPhase

variable {r t : State ℝ σ d} {kind : StepKind}

/-- The states before a state are those before its predecessor, and the predecessor. -/
theorem after {l : List (State ℝ σ d)} {k : Nat} (h : InPhase c theta0 (l.take (k + 1)) t)
    (here : l[k]? = some r) : InPhase c theta0 (l.take k ++ [r]) t := by
  rwa [take_succ_of_getElem? here] at h

/-- A tested step leads to a point that was accepted as its trial. -/
theorem accepted (h : InPhase c theta0 (before ++ [r]) t) (left : r.leftBy c = some kind)
    (tested : kind ≠ .tiny) : ∃ alpha slope, r.lineSearch.accept r.filter (r.measures c)
      (t.measuresAt c r.mu) alpha slope = some kind := by
  obtain ⟨dir, acc, e, chosen, rfl⟩ := State.chosen_of_leftBy left
  rw [h.arrival r dir acc e List.getLast?_concat chosen]
  exact ⟨_, _, chosen.accepted.test.resolve_left tested⟩

theorem capped (h : InPhase c theta0 before r) (next : InPhase c theta0 (before ++ [r]) t)
    (left : r.leftBy c = some kind) (tested : kind ≠ .tiny) :
    violation t.eval t.curr ≤ 1e4 * max 1 theta0 := by
  obtain ⟨alpha, slope, accepted⟩ := next.accepted left tested
  have capped := (LineSearch.accept_some accepted).1
  rw [h.search] at capped
  simpa [State.measuresAt, LineSearch.ofSettings, max_comm] using capped

theorem improved (h : InPhase c theta0 before r) (next : InPhase c theta0 (before ++ [r]) t)
    (left : r.leftBy c = some .filter) : ImprovesOn c r t := by
  obtain ⟨alpha, slope, accepted⟩ := next.accepted left (by decide)
  have improves := (LineSearch.accept_some accepted).2.2 rfl
  rw [h.search] at improves
  exact improves

/-- A tested step improves on every pair its phase has recorded. -/
theorem separated (h : InPhase c theta0 before r) (next : InPhase c theta0 (before ++ [r]) t)
    (left : r.leftBy c = some kind) (tested : kind ≠ .tiny) (earlier : s ∈ before)
    (same : r.mu = s.mu) (recorded : s.leftBy c = some .filter) : StrictlyImprovesOn c s t := by
  obtain ⟨alpha, slope, accepted⟩ := next.accepted left tested
  have free := (LineSearch.accept_some accepted).2.1
  have member := mem_phaseEntries earlier same.symm recorded
  rw [h.filter] at free
  rw [StrictlyImprovesOn, ← same]
  exact Filter.improves_of_not_dominated free member

end InPhase

/-- The invariant of every state gives the history. -/
theorem FilterHistory.of_inPhase (inRange : c.settings.InRange) {l : List (State ℝ σ d)}
    (h : ∀ k s, l[k]? = some s → InPhase c theta0 (l.take k) s) : FilterHistory c theta0 l := by
  have next : ∀ (k : Nat) (s t : State ℝ σ d), l[k]? = some s → l[k + 1]? = some t →
      InPhase c theta0 (l.take k ++ [s]) t := by
    intro k s t here there
    exact (h (k + 1) t there).after here
  have separated : ∀ (k m : Nat) (s r t : State ℝ σ d) (kind : StepKind), l[k]? = some s →
      s.leftBy c = some .filter → k < m → l[m]? = some r → l[m + 1]? = some t → r.mu = s.mu →
      r.leftBy c = some kind → kind ≠ .tiny → StrictlyImprovesOn c s t := by
    intro k m s r t kind here recorded later stop there same left tested
    exact (h m r stop).separated (next m r t stop there) left tested
      (mem_take_of_getElem? here later) same recorded
  constructor
  · intro k s here
    rw [(h k s here).filter]
  · intro k s t here there
    exact (next k s t here there).mu s (by simp)
  · intro k s t here there same
    rw [(h k s here).filter, (next k s t here there).filter, phaseEntries_concat, same]
    exact List.prefix_append _ _
  · intro k s t here there below
    rw [(next k s t here there).filter]
    apply phaseEntries_eq_nil
    intro r member
    exact below.trans_le ((h k s here).mu_concat r member)
  · intro k s t kind here there left tested
    exact (h k s here).capped (next k s t here there) left tested
  · intro k s t here there recorded
    exact (h k s here).improved (next k s t here there) recorded
  · exact separated
  · intro k m s r t kind here recorded infeasible order stop there same left tested
    obtain later | rfl := order.lt_or_eq
    · have improves := separated k m s r t kind here recorded later stop there same left tested
      exact improves.improvesOn.ne inRange infeasible
    · obtain rfl := Option.some.inj (here.symm.trans stop)
      exact ((h k s here).improved (next k s t here there) recorded).ne inRange infeasible

namespace Engine

variable {e : Engine ℝ σ d} {obs : Observer ℝ d ω} {o : ω} {first last : State ℝ σ d}
  {reports : List (State ℝ σ d)} {ending : Except (Failure ℝ) Status}

/-- The margins of the engine's filter are those of its settings. -/
def Margins (e : Engine ℝ σ d) : Prop :=
  e.state.filter.gammaTheta = e.setup.settings.gammaTheta ∧
    e.state.filter.gammaPhi = e.setup.settings.gammaPhi

namespace Follows

theorem inPhase_beginning (follows : e.Follows obs o first reports ending last)
    (margins : e.Margins) :
    InPhase e.setup (violation first.eval first.curr) [] (first.headed e.setup) := by
  obtain ⟨x0, eval, y, w, -, -, rfl⟩ := startingProcedure_ok follows.start
  obtain ⟨w', headed⟩ := State.headed_eq _ e.setup
  rw [headed]
  refine ⟨?_, ?_, rfl, ?_⟩
  · intro r member
    cases member
  · rw [← margins.1, ← margins.2, ← e.opened_filter]
    rfl
  · intro r dir acc eval last
    cases last

theorem inPhase_report (follows : e.Follows obs o first reports ending last)
    (margins : e.Margins) {k : Nat} (here : reports[k]? = some s) :
    InPhase e.setup (violation first.eval first.curr) (reports.take k) s :=
  follows.report_holds (InPhase.preserved _ _) (follows.inPhase_beginning margins) here

/-- The state a run leaves comes after all reports, unless it is the last of them. -/
theorem inPhase_exit (follows : e.Follows obs o first reports ending last) (margins : e.Margins) :
    ∃ before, InPhase e.setup (violation first.eval first.curr) before last ∧
      before <+: reports ∧ (ending ≠ .ok .userStopped → before = reports) := by
  obtain ⟨o', course⟩ := follows.course
  have exit := course.exit_holds (InPhase.preserved e.setup _) []
    (follows.inPhase_beginning margins)
  rw [List.nil_append] at exit
  cases exit with
  | spent after => exact ⟨_, after, List.prefix_rfl, fun _ => rfl⟩
  | decided after verdict => exact ⟨_, after.checked, List.prefix_rfl, fun _ => rfl⟩
  | stopped after => exact ⟨_, after, List.prefix_append _ _, fun other => absurd rfl other⟩
  | failed after step => exact ⟨_, after.failed step, List.prefix_rfl, fun _ => rfl⟩

/-- Every state of a run is in its phase. -/
theorem inPhase (follows : e.Follows obs o first reports ending last) (margins : e.Margins)
    {k : Nat} (here : (visited reports ending last)[k]? = some s) :
    InPhase e.setup (violation first.eval first.curr) ((visited reports ending last).take k) s :=
  follows.visited_holds (InPhase.preserved _ _) (fun _ _ _ _ h step => h.failed step)
    (follows.inPhase_beginning margins) here

/-- The barrier parameter does not grow from one visited state to a later one. -/
theorem mu_antitone (follows : e.Follows obs o first reports ending last) (margins : e.Margins)
    {k m : Nat} (order : k ≤ m) (here : (visited reports ending last)[k]? = some s)
    (there : (visited reports ending last)[m]? = some s') : s'.mu ≤ s.mu := by
  obtain later | rfl := order.lt_or_eq
  · exact (follows.inPhase margins there).mu s (mem_take_of_getElem? here later)
  · rw [Option.some.inj (here.symm.trans there)]

end Follows

/-- A run does not change the margins of the filter. -/
theorem Margins.run (margins : e.Margins) (obs : Observer ℝ d ω) (o : ω) :
    (e.run obs o).2.1.Margins := by
  rcases started : (startingProcedure e.setup).outcome e.opened with ⟨cause | _, first⟩
  · rw [Margins, filter_of_failed_start obs o started]
    exact margins
  · obtain ⟨reports, ending, last, follows⟩ := e.run_follows obs o started
    obtain ⟨before, after, -⟩ := follows.inPhase_exit margins
    obtain ⟨w, state⟩ := follows.state
    rw [Margins, state, after.filter]
    exact ⟨rfl, rfl⟩

theorem Margins.of_reaches {e₀ : Engine ℝ σ d} (margins : e₀.Margins) (runs : e₀.Reaches e) :
    e.Margins := by
  induction runs with
  | refl => exact margins
  | run before obs o ih => exact ih.run obs o

end Engine

/-- In every run of an engine, the filter is empty at the start and then records the iterates of
each barrier phase that were left by a filter step, and tested steps keep away from them. -/
theorem filter_records_phases {p : Problem ℝ σ d} {settings : InteriorSettings ℝ}
    (inRange : settings.InRange) {e₀ e : Engine ℝ σ d} {w w' : World ℝ σ}
    (created : (Engine.create p settings).outcome w = (.ok e₀, w')) (runs : e₀.Reaches e)
    (obs : Observer ℝ d ω) (o : ω) {first : State ℝ σ d}
    (started : (startingProcedure e.setup).outcome e.opened = (.ok (), first)) :
    first.filter.entries = [] ∧
      ∃ reports ending last, e.Follows obs o first reports ending last ∧
        FilterHistory e.setup (violation first.eval first.curr) (visited reports ending last) := by
  obtain ⟨rfl, rfl, -, exact, w₀, state⟩ := Engine.create_ok inRange created
  have margins : e₀.Margins := by
    rw [Engine.Margins, state]
    exact ⟨rfl, rfl⟩
  have kept := margins.of_reaches runs
  have emptied := (startingProcedure_filter e.setup _).ok e.opened_filter started
  refine ⟨by rw [emptied]; rfl, ?_⟩
  obtain ⟨reports, ending, last, follows⟩ := e.run_follows obs o started
  refine ⟨reports, ending, last, follows, .of_inPhase ?_ fun k s => follows.inPhase kept⟩
  rw [runs.setup_eq]
  exact inRange

end Phase

open scoped Linear.Exact

/-- A run that takes a filter step in its second phase: the filter it leaves holds the pair of the
start. -/
theorem halfway_filter_history : ∃ first r last,
    (Halfway.engine 200).Follows Observer.silent () first [r] (.ok .success) last ∧
      FilterHistory (Halfway.setup 200) (violation first.eval first.curr) [r, last] ∧
      r.leftBy (Halfway.setup 200) = some .filter ∧ r.filter.entries = [] ∧
      last.filter.entries =
        [((r.measures (Halfway.setup 200)).theta, (r.measures (Halfway.setup 200)).phi)] := by
  have large : (100 : ℝ) ≤ 200 := by norm_num
  obtain ⟨first, s, last, follows, -, h, midway, -, dir, acc, e, chosen, -, kind⟩ :=
    Halfway.run Exact.exactSolver_exact large
  obtain ⟨-, reports, ending, last', follows', history⟩ := filter_records_phases
    (Halfway.settings_inRange (by norm_num)) (Halfway.created 200) .refl Observer.silent ()
    follows.start
  obtain ⟨rfl, rfl, rfl⟩ := follows.unique follows'
  have left := State.leftBy_of_chosen chosen
  rw [kind] at left
  have same : (s.reported (Halfway.setup 200)).mu = last'.mu := h.mu.trans midway.mu.symm
  refine ⟨first, _, last', follows, history, left, h.filter, ?_⟩
  rw [history.entries 1 last' rfl]
  exact phaseEntries_concat last'.mu [] _ |>.trans (if_pos ⟨same, left⟩)

end Barrier

end SmoothOpt
