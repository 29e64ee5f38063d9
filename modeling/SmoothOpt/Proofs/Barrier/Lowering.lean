import Mathlib
import SmoothOpt.Proofs.Barrier.Halfway

/-!
The barrier parameter in exact arithmetic.

One update lowers the parameter by its loop, keeps it at the floor at least, and everything that
depends on it follows. Along a run only the update changes the parameter, so that it decreases from
its starting value and does not leave the floor behind.
-/
namespace SmoothOpt

open Scalar Linear

namespace Barrier

variable {σ ω : Type} {d : Dims}

section Real

variable {c : Setup ℝ σ d} {s s' : State ℝ σ d}

/-- What the barrier update does to the state `s`: the parameter moves down, not below the floor
unless it was there, and everything that depends on it follows. -/
structure Descended (c : Setup ℝ σ d) (s s' : State ℝ σ d) : Prop where
  curr : s'.curr = s.curr
  eval : s'.eval = s.eval
  floor : min s.mu (c.settings.tolerance / 10) ≤ s'.mu
  le : s'.mu ≤ s.mu
  tau : s'.tau = c.schedule.tau s'.mu
  resid : s'.resid = .compute s.curr s.eval c.bounds s'.mu c.settings.pSmax
  emptied : s'.mu < s.mu → s'.filter.entries = []
  kept : ¬s'.mu < s.mu → s'.filter = s.filter

theorem updateBarrier_descended (tau : s.tau = c.schedule.tau s.mu)
    (resid : s.resid = .compute s.curr s.eval c.bounds s.mu c.settings.pSmax) :
    Descended c s (s.updateBarrier c) := by
  apply State.updateBarrier_preserves (P := Descended c s)
  · intro t w _ h _ smaller
    have below : c.schedule.next t.mu < s.mu := (not_le.mp smaller).trans_le h.le
    refine ⟨h.curr, h.eval, ?_, below.le, rfl, ?_, fun _ => rfl, fun same => absurd below same⟩
    · rw [← Schedule.muMin_eq]
      exact (min_le_right _ _).trans (Schedule.muMin_le_next _ _)
    · simp only [State.lowered, h.curr, h.resid]
      rfl
  · exact ⟨rfl, rfl, min_le_left _ _, le_rfl, tau, resid, fun moved => absurd moved (lt_irrefl _),
      fun _ => rfl⟩

/-- The parameter of a state after the states `before`: it has come down from its starting value
and is not below the floor. -/
structure Descending (c : Setup ℝ σ d) (before : List (State ℝ σ d)) (s : State ℝ σ d) :
    Prop where
  start : s.mu ≤ c.settings.mu0
  floor : min c.settings.mu0 (c.settings.tolerance / 10) ≤ s.mu
  earlier : ∀ r ∈ before, s.mu ≤ r.mu

variable {before : List (State ℝ σ d)}

theorem Descending.reported (h : Descending c before s) : Descending c before (s.reported c) := by
  apply State.updateBarrier_preserves (P := Descending c before)
  · intro t w _ h _ smaller
    have below : c.schedule.next t.mu ≤ t.mu := (not_le.mp smaller).le
    refine ⟨below.trans h.start, ?_, fun r member => below.trans (h.earlier r member)⟩
    rw [← Schedule.muMin_eq]
    exact (min_le_right _ _).trans (Schedule.muMin_le_next _ _)
  · exact ⟨h.start, h.floor, h.earlier⟩

theorem Descending.concat (h : Descending c before s) (same : s'.mu = s.mu) :
    Descending c (before ++ [s]) s' := by
  refine ⟨same ▸ h.start, same ▸ h.floor, fun r member => ?_⟩
  rw [same]
  obtain earlier | last := List.mem_append.mp member
  · exact h.earlier r earlier
  · rw [List.mem_singleton.mp last]

variable [DenseSolver ℝ]

theorem descending_preserved (c : Setup ℝ σ d) : Preserved c (Descending c) where
  check _ _ h := ⟨h.start, h.floor, h.earlier⟩
  report _ _ h := h.reported
  step _ _ _ h step := h.concat (advance_mu step)

namespace Engine

variable {e : Engine ℝ σ d} {obs : Observer ℝ d ω} {o : ω} {first last : State ℝ σ d}
  {reports : List (State ℝ σ d)} {ending : Except (Failure ℝ) Status}

theorem mu_of_start (start : (startingProcedure e.setup).outcome e.opened = (.ok (), first)) :
    first.mu = e.setup.settings.mu0 := by
  obtain ⟨x0, eval, y, w, -, -, rfl⟩ := startingProcedure_ok start
  rfl

theorem Follows.descending_beginning (follows : e.Follows obs o first reports ending last) :
    Descending e.setup [] (first.headed e.setup) := by
  obtain ⟨w, headed⟩ := first.headed_eq e.setup
  rw [headed]
  refine ⟨(mu_of_start follows.start).le, ?_, fun r member => absurd member List.not_mem_nil⟩
  exact (min_le_left _ _).trans (mu_of_start follows.start).ge

theorem Follows.descending_report (follows : e.Follows obs o first reports ending last)
    {init rest : List (State ℝ σ d)} {r : State ℝ σ d} (cut : reports = init ++ r :: rest) :
    Descending e.setup init r := by
  obtain ⟨o', course⟩ := follows.course
  exact course.reports_hold (descending_preserved _) [] follows.descending_beginning _ _ _ cut

/-- The state a run leaves comes after all its reports. -/
theorem Follows.descending_exit (follows : e.Follows obs o first reports ending last) :
    Descending e.setup reports last := by
  obtain ⟨o', course⟩ := follows.course
  have exit := course.exit_holds (descending_preserved e.setup) [] follows.descending_beginning
  rw [List.nil_append] at exit
  cases exit with
  | spent after => exact after
  | decided after verdict => exact ⟨after.start, after.floor, after.earlier⟩
  | stopped after => exact after.concat rfl
  | failed after step => exact after.concat (advance_mu step)

/-- Along the reports the parameter does not grow. -/
theorem Follows.reports_descend (follows : e.Follows obs o first reports ending last) :
    reports.Pairwise fun r t => t.mu ≤ r.mu := by
  rw [List.pairwise_iff_getElem]
  intro i j inside_i inside_j before
  have cut : reports = reports.take j ++ reports[j] :: reports.drop (j + 1) := by
    rw [List.getElem_cons_drop, List.take_append_drop]
  refine (follows.descending_report cut).earlier _ (List.mem_iff_getElem?.mpr ⟨i, ?_⟩)
  rw [List.getElem?_take, if_pos before, List.getElem?_eq_getElem inside_i]

/-- From the start over the reports to the state that is left, the parameter does not grow and does
not leave the floor behind. -/
theorem Follows.parameters_descend (follows : e.Follows obs o first reports ending last) :
    (e.setup.settings.mu0 :: (reports ++ [last]).map (·.mu)).Pairwise (· ≥ ·) ∧
      ∀ s ∈ reports ++ [last],
        min e.setup.settings.mu0 (e.setup.settings.tolerance / 10) ≤ s.mu := by
  have exit := follows.descending_exit
  have each : ∀ s ∈ reports ++ [last], ∃ before, Descending e.setup before s := by
    intro s member
    obtain reported | left := List.mem_append.mp member
    · obtain ⟨init, rest, cut⟩ := List.append_of_mem reported
      exact ⟨init, follows.descending_report cut⟩
    · rw [List.mem_singleton.mp left]
      exact ⟨reports, exit⟩
  refine ⟨?_, ?_⟩
  · rw [List.pairwise_cons, List.pairwise_map, List.pairwise_append]
    refine ⟨?_, follows.reports_descend, List.pairwise_singleton _ _, ?_⟩
    · intro mu listed
      obtain ⟨s, member, rfl⟩ := List.mem_map.mp listed
      obtain ⟨before, h⟩ := each s member
      exact h.start
    · intro r member t left
      rw [List.mem_singleton.mp left]
      exact exit.earlier r member
  · intro s member
    obtain ⟨before, h⟩ := each s member
    exact h.floor

end Engine

/-- A start sets the barrier parameter, or fails before it touches it. -/
theorem startingProcedure_mu (c : Setup ℝ σ d) (mu : ℝ) :
    Step.Ensures (fun s => s.mu = mu) (startingProcedure c) (fun _ s => s.mu = c.settings.mu0)
      fun s => s.mu = mu := by
  have asked : Step.Keeps (fun s : State ℝ σ d => s.mu = mu) (askStart c) :=
    .of_state fun _ => id
  unfold startingProcedure
  refine .bind asked fun x0 => .bind (Q := fun _ s => s.mu = mu) (.modify fun _ => id) fun _ =>
    .bind (Q := fun _ s => s.mu = mu) ?_ fun _ => .modify ?_
  · exact Step.Keeps.of_state fun _ => id
  · intro s _
    obtain ⟨w, settled⟩ := settleStart_eq s c
    rw [settled]
    rfl

/-- The parameter an engine holds lies between the floor and its starting value. -/
structure Engine.InBand (e : Engine ℝ σ d) (mu : ℝ) : Prop where
  floor : min e.setup.settings.mu0 (e.setup.settings.tolerance / 10) ≤ mu
  start : mu ≤ e.setup.settings.mu0

namespace Engine

variable {e : Engine ℝ σ d}

/-- A run keeps the parameter in its band, also if it does not come to its start. -/
theorem InBand.run (band : e.InBand e.state.mu) (obs : Observer ℝ d ω) (o : ω) :
    e.InBand (e.run obs o).1.info.mu ∧
      (e.run obs o).2.1.state.mu = (e.run obs o).1.info.mu := by
  rcases started : (startingProcedure e.setup).outcome e.opened with ⟨cause | _, first⟩
  · obtain ⟨result, ⟨w, state⟩, -⟩ := run_of_failed_start obs o started
    have opened : e.opened.mu = e.state.mu := by
      obtain ⟨w, opened⟩ := e.opened_eq
      rw [opened]
    have untouched := (startingProcedure_mu e.setup _).error opened started
    rw [result, state]
    exact ⟨untouched.symm ▸ band, rfl⟩
  · obtain ⟨reports, ending, last, follows⟩ := e.run_follows obs o started
    have exit := follows.descending_exit
    obtain ⟨w, state⟩ := follows.state
    rw [follows.result, state]
    exact ⟨⟨exit.floor, exit.start⟩, rfl⟩

theorem InBand.of_reaches {e₀ : Engine ℝ σ d} (band : e₀.InBand e₀.state.mu)
    (runs : e₀.Reaches e) : e.InBand e.state.mu := by
  induction runs with
  | refl => exact band
  | run before obs o ih =>
    obtain ⟨within, same⟩ := ih.run obs o
    rw [same]
    exact ⟨within.floor, within.start⟩

end Engine

/-- The barrier update ends by its own test, after at most `stepsToFloor` decreases. It lowers the
parameter at most to the floor, recomputes what depends on it, and empties the filter if it lowers
at all. So the parameter of a run comes down from its starting value and stays positive. -/
theorem barrier_parameter_descends {settings : InteriorSettings ℝ} (inRange : settings.InRange) :
    (∀ (c : Setup ℝ σ d) (s : State ℝ σ d), c.settings = settings → 0 < s.mu →
      s.tau = c.schedule.tau s.mu →
      s.resid = .compute s.curr s.eval c.bounds s.mu settings.pSmax →
      let s' := s.updateBarrier c
      (∃ k ≤ c.schedule.stepsToFloor s.mu, ∀ j t, Lowers c j s t ↔ j = k ∧ t = s') ∧
        min s.mu (settings.tolerance / 10) ≤ s'.mu ∧ s'.mu ≤ s.mu ∧
        s'.tau = max settings.tauMin (1 - s'.mu) ∧ 0 < s'.tau ∧ s'.tau < 1 ∧
        s'.resid = .compute s.curr s.eval c.bounds s'.mu settings.pSmax ∧
        (settings.kappaEps * s'.mu < s'.resid.barOverall ∨ s'.mu ≤ settings.tolerance / 10) ∧
        (s'.mu < s.mu → s'.filter.entries = []) ∧ (¬s'.mu < s.mu → s'.filter = s.filter)) ∧
    0 < min settings.mu0 (settings.tolerance / 10) ∧
    ∀ (p : Problem ℝ σ d) (e₀ e : Engine ℝ σ d) (w w' : World ℝ σ),
      (Engine.create p settings).outcome w = (.ok e₀, w') → e₀.Reaches e →
      ∀ (obs : Observer ℝ d ω) (o : ω),
        (min settings.mu0 (settings.tolerance / 10) ≤ (e.run obs o).1.info.mu ∧
          (e.run obs o).1.info.mu ≤ settings.mu0) ∧
        ∀ first, (startingProcedure e.setup).outcome e.opened = (.ok (), first) →
          first.mu = settings.mu0 ∧
          ∃ reports ending last, e.Follows obs o first reports ending last ∧
            (settings.mu0 :: (reports ++ [last]).map (·.mu)).Pairwise (· ≥ ·) ∧
            ∀ s ∈ reports ++ [last], min settings.mu0 (settings.tolerance / 10) ≤ s.mu := by
  have floor_pos : 0 < min settings.mu0 (settings.tolerance / 10) :=
    lt_min inRange.mu0 (div_pos inRange.tolerance (by norm_num))
  refine ⟨?_, floor_pos, ?_⟩
  · rintro c s rfl mu_pos tau resid
    have descended := updateBarrier_descended tau resid
    obtain ⟨k, within, lowers⟩ := updateBarrier_lowers inRange mu_pos
    have left_pos : 0 < (s.updateBarrier c).mu := by
      refine lt_of_lt_of_le (lt_min mu_pos ?_) descended.floor
      exact div_pos inRange.tolerance (by norm_num)
    have fraction : (s.updateBarrier c).tau = max c.settings.tauMin (1 - (s.updateBarrier c).mu) := by
      rw [descended.tau, Schedule.tau, maxNum_real]
      rfl
    refine ⟨⟨k, within, fun j t => ⟨lowers.unique, ?_⟩⟩, descended.floor, descended.le, fraction, ?_,
      ?_, descended.resid, lowers.keeps.exit inRange left_pos, descended.emptied, descended.kept⟩
    · rintro ⟨rfl, rfl⟩
      exact lowers
    · rw [descended.tau]
      exact Schedule.tau_pos inRange _
    · rw [descended.tau]
      exact (Schedule.tau_mem inRange left_pos).2
  · intro p e₀ e w w' created runs obs o
    obtain ⟨rfl, rfl, -, exact, w₀, state⟩ := Engine.create_ok inRange created
    have band : e₀.InBand e₀.state.mu := by
      rw [state]
      exact ⟨min_le_left _ _, le_rfl⟩
    obtain ⟨above, below⟩ := ((band.of_reaches runs).run obs o).1
    rw [runs.setup_eq] at above below
    refine ⟨⟨above, below⟩, fun first started => ?_⟩
    obtain ⟨reports, ending, last, follows⟩ := e.run_follows obs o started
    have start := Engine.mu_of_start started
    have descend := follows.parameters_descend
    rw [runs.setup_eq] at start descend
    exact ⟨start, reports, ending, last, follows, descend⟩

end Real

open scoped Linear.Exact

/-- A run that starts with parameter 20: its first barrier update decreases it once, to ten. -/
theorem halfway_parameter_descends : ∃ first s last : State ℝ Unit Halfway.trio,
    (Halfway.engine 200).Follows Observer.silent () first [s.reported (Halfway.setup 200)]
      (.ok .success) last ∧
    s.mu = 20 ∧ (s.reported (Halfway.setup 200)).mu = 10 ∧
    [20, (s.reported (Halfway.setup 200)).mu, last.mu].Pairwise (· ≥ ·) ∧
    ∀ j t, Lowers (Halfway.setup 200) j s.checked.2 t ↔
      j = 1 ∧ t = s.reported (Halfway.setup 200) := by
  have large : (100 : ℝ) ≤ 200 := by norm_num
  obtain ⟨first, s, last, follows, h, reported, -, lowers, -⟩ :=
    Halfway.run Exact.exactSolver_exact large
  obtain ⟨loop, -, run⟩ := barrier_parameter_descends
    (Halfway.settings_inRange (by norm_num : (0 : ℝ) < 200))
  obtain ⟨-, descends⟩ := run _ _ _ _ _ (Halfway.created 200) .refl Observer.silent ()
  obtain ⟨-, reports, ending, last', follows', descend, -⟩ := descends first follows.start
  obtain ⟨rfl, rfl, rfl⟩ := follows.unique follows'
  have twenty : s.mu = 20 := by
    rw [h.mu]
    norm_num
  obtain ⟨⟨k, -, ends⟩, -⟩ := loop (Halfway.setup 200) s.checked.2 rfl
    (twenty.symm ▸ by norm_num) h.coherent.checked.tau h.coherent.checked.resid
  obtain ⟨rfl, -⟩ := (ends 1 _).mp lowers
  refine ⟨first, s, last', follows, twenty, ?_, ?_, ends⟩
  · rw [reported.mu]
    norm_num
  · have start : (Halfway.settings 200).mu0 = 20 := by
      norm_num [Halfway.settings]
    rwa [start] at descend

end Barrier

end SmoothOpt
