import SmoothOpt.Proofs.Newton.Correction
import SmoothOpt.Proofs.Settings.Range

/-!
The cap on the primal shift.

Growing a shift is checked against the cap, and the schedule ends there. The first shift of a
correction is not: it is the parameter for the first one, or comes from the last shift that helped,
with a floor of its own. So the cap holds over every sequence of solves when these two are below
it, and a first shift above it is tried and reported all the same.
-/
namespace SmoothOpt

open Scalar Linear

namespace Newton

/-- The primal shifts a correction has factored the matrix with, the rejected ones and that of the
solution; zero for a solution without a correction. -/
def Outcome.shifts {α : Type} {d : Dims} (o : Outcome α d) : List α :=
  o.rejected.map (·.deltaW) ++
    match o.result with
    | .ok sol => [sol.deltaW]
    | .error _ => []

theorem Outcome.deltaW_mem_shifts {α : Type} {d : Dims} {o : Outcome α d} {sol : Solution α d}
    (solved : o.result = .ok sol) : sol.deltaW ∈ o.shifts := by
  simp [shifts, solved]

theorem Outcome.mem_shifts_of_raised {α : Type} [Scalar α] {d : Dims} {o : Outcome α d} {w : α}
    (raised : o.raised = some w) : w ∈ o.shifts := by
  obtain ⟨sol, solved, -, rfl⟩ := raised_eq_some.mp raised
  exact deltaW_mem_shifts solved

namespace Regularization

variable {s : InteriorSettings ℝ} {st : ShiftMemory ℝ} {k : Nat} {w : ℝ}

theorem growing_of_inRange (inRange : s.InRange) : (ofSettings s).Growing where
  deltaWInit := inRange.deltaWInit
  deltaWMin := by norm_num [ofSettings, default]
  kappaPlus := by norm_num [ofSettings, default]
  kappaPlusBar := by norm_num [ofSettings, default]

/-- The largest of the cap and the two values a first shift can have instead. -/
noncomputable def highest (s : InteriorSettings ℝ) : ℝ :=
  max s.deltaWMax (max s.deltaWInit 1e-20)

theorem highest_pos (s : InteriorSettings ℝ) : 0 < highest s :=
  lt_max_of_lt_right (lt_max_of_lt_right (by norm_num))

/-- A third of an earlier shift is no larger than that. -/
theorem firstShift_le (below : st.deltaWLast ≤ highest s) :
    (ofSettings s).firstShift st ≤ highest s := by
  have floor : (1e-20 : ℝ) ≤ highest s := (le_max_right _ _).trans (le_max_right _ _)
  rw [firstShift]
  split
  · exact (le_max_left _ _).trans (le_max_right _ _)
  · rw [maxNum_real]
    apply max_le floor
    norm_num only [ofSettings, default] at floor ⊢
    linarith

/-- Every scheduled shift is within the cap or a first one. -/
theorem scheduled_le (below : st.deltaWLast ≤ highest s)
    (at_k : (ofSettings s).scheduled st k = some w) : w ≤ highest s := by
  cases k with
  | zero =>
    cases at_k
    exact firstShift_le below
  | succ k => exact (scheduled_succ_le at_k).trans (le_max_left _ _)

end Regularization

section Solves

variable [DenseSolver ℝ] {d : Dims} {r : Regularization ℝ} {st : ShiftMemory ℝ}
  {data : Data ℝ d} {w : ℝ} {i : Nat}

/-- What a correction tries one after another is its schedule. -/
theorem Followed.scheduled {deltaC : ℝ}
    {o : Option (ℝ × ScaledEigen ℝ (size d)) × List (Rejected ℝ)}
    (h : Followed r st data deltaC 0 o)
    (tried : (o.2.map (·.deltaW) ++ (o.1.map Prod.fst).toList)[i]? = some w) :
    r.scheduled st i = some w := by
  by_cases early : i < o.2.length
  · rw [List.getElem?_append_left (by simpa using early), List.getElem?_map,
      Option.map_eq_some_iff] at tried
    obtain ⟨a, member, rfl⟩ := tried
    have attempt := (h.attempts i a member).1
    rwa [Nat.zero_add] at attempt
  · rw [List.getElem?_append_right (by simpa using early), List.length_map] at tried
    have next := h.next
    rw [Nat.zero_add] at next
    cases found : o.1.map Prod.fst with
    | none => simp [found] at tried
    | some v =>
      obtain ⟨behind, rfl⟩ : i - o.2.length = 0 ∧ v = w := by
        simpa [found, List.getElem?_singleton] using tried
      obtain rfl : i = o.2.length := by omega
      exact next.trans found

theorem Settles.scheduled {o : Outcome ℝ d} (h : Settles r st data o)
    (tried : o.shifts[i]? = some w) : w = 0 ∨ r.scheduled st i = some w := by
  cases h with
  | plain fits deltaW =>
    obtain ⟨-, rfl⟩ : i = 0 ∧ _ = w := by
      simpa [Outcome.shifts, List.getElem?_singleton] using tried
    exact .inl deltaW
  | exhausted unfit followed => exact .inr (followed.scheduled tried)
  | raised unfit deltaC followed => exact .inr (followed.scheduled tried)

theorem RawData.scheduled (growing : r.Growing) {raw : RawData ℝ}
    (tried : (raw.solve r st).shifts[i]? = some w) : w = 0 ∨ r.scheduled st i = some w := by
  cases sizes : raw.sized? with
  | none =>
    rw [solve_of_unsized sizes] at tried
    cases tried
  | some data =>
    rw [solve_of_sized sizes] at tried
    exact (solve_settles growing st data).scheduled tried

end Solves

section Histories

open Regularization

variable [DenseSolver ℝ] {s : InteriorSettings ℝ} {st : ShiftMemory ℝ} {w : ℝ}

/-- No shift of a solve is above the cap and the values of a first shift, if the memory is not. -/
theorem RawData.shifts_le (inRange : s.InRange) (below : st.deltaWLast ≤ highest s)
    {raw : RawData ℝ} (tried : w ∈ (raw.solve (ofSettings s) st).shifts) : w ≤ highest s := by
  obtain ⟨i, at_i⟩ := List.mem_iff_getElem?.mp tried
  obtain rfl | at_k := RawData.scheduled (growing_of_inRange inRange) at_i
  · exact (highest_pos s).le
  · exact scheduled_le below at_k

/-- A solve leaves a memory that is not above them either. -/
theorem RawData.memory_le (inRange : s.InRange) (below : st.deltaWLast ≤ highest s)
    (raw : RawData ℝ) : (raw.solve (ofSettings s) st).memory.deltaWLast ≤ highest s := by
  rw [raw.memory_eq (growing_of_inRange inRange)]
  cases raised : (raw.solve (ofSettings s) st).raised with
  | none => exact below
  | some w => exact shifts_le inRange below (Outcome.mem_shifts_of_raised raised)

theorem memoryFrom_le (inRange : s.InRange) (below : st.deltaWLast ≤ highest s)
    (calls : List (RawData ℝ)) :
    (memoryFrom (ofSettings s) st calls).deltaWLast ≤ highest s := by
  induction calls generalizing st with
  | nil => exact below
  | cons raw rest ih => exact ih (raw.memory_le inRange below)

/-- Over every sequence of solves with parameters that options can set, the shifts of a correction
after its first are within the cap, and the first one is within it or one of the two values it can
start with. So no shift is factored or reported beyond the cap if these two are not beyond it. -/
theorem shifts_stay_within_cap (reached : s.Configured) (calls : List (RawData ℝ))
    (raw : RawData ℝ) :
    let o := raw.solve (ofSettings s) (memoryFrom (ofSettings s) .fresh calls)
    (∀ w ∈ o.shifts.tail, w ≤ s.deltaWMax) ∧
      (∀ w ∈ o.shifts, w ≤ max s.deltaWMax (max s.deltaWInit 1e-20)) ∧
      (s.deltaWInit ≤ s.deltaWMax → 1e-20 ≤ s.deltaWMax →
        (∀ w ∈ o.shifts, w ≤ s.deltaWMax) ∧
          ∀ sol, o.result = .ok sol → sol.deltaW ≤ s.deltaWMax) := by
  have inRange := reached.inRange InteriorSettings.default_inRange
  have fresh : (.fresh : ShiftMemory ℝ).deltaWLast ≤ highest s := (highest_pos s).le
  have memory := memoryFrom_le inRange fresh calls
  refine ⟨fun w later => ?_, fun w tried => RawData.shifts_le inRange memory tried,
    fun start floor => ?_⟩
  · obtain ⟨i, at_i⟩ := List.mem_iff_getElem?.mp later
    rw [List.getElem?_tail] at at_i
    obtain rfl | at_k := RawData.scheduled (growing_of_inRange inRange) at_i
    · exact inRange.deltaWMax.le
    · exact scheduled_succ_le at_k
  · have capped : highest s = s.deltaWMax := max_eq_left (max_le start floor)
    rw [capped] at memory
    have within : ∀ w ∈ (raw.solve (ofSettings s)
        (memoryFrom (ofSettings s) .fresh calls)).shifts, w ≤ s.deltaWMax :=
      fun w tried => capped ▸ RawData.shifts_le inRange (capped ▸ memory) tried
    exact ⟨within, fun sol solved => within _ (Outcome.deltaW_mem_shifts solved)⟩

end Histories

namespace Concave

open Exact Regularization

noncomputable def settings (first cap : ℝ) : InteriorSettings ℝ :=
  { (.default : InteriorSettings ℝ) with deltaWInit := first, deltaWMax := cap }

theorem settings_configured {first cap : ℝ} (first_pos : 0 < first) (cap_pos : 0 < cap) :
    (settings first cap).Configured := by
  have passed (name : String) {v : ℝ} (v_pos : 0 < v) :
      (OptionValue.numeric v).positive name = .ok v := by
    simp [OptionValue.positive, OptionValue.inRange, OptionValue.number, v_pos, v_pos.le, bind,
      Except.bind]
  have started : InteriorSettings.default.setOption "delta_w_init" (.numeric first) =
      .ok { (.default : InteriorSettings ℝ) with deltaWInit := first } := by
    have stored : InteriorSettings.assignment "delta_w_init" (.numeric first) = (do
        let v ← (OptionValue.numeric first).positive "delta_w_init"
        return fun s : InteriorSettings ℝ => { s with deltaWInit := v }) := rfl
    rw [InteriorSettings.setOption, stored, passed _ first_pos]
    rfl
  have capped (s : InteriorSettings ℝ) : s.setOption "delta_w_max" (.numeric cap) =
      .ok { s with deltaWMax := cap } := by
    have stored : InteriorSettings.assignment "delta_w_max" (.numeric cap) = (do
        let v ← (OptionValue.numeric cap).positive "delta_w_max"
        return fun s : InteriorSettings ℝ => { s with deltaWMax := v }) := rfl
    rw [InteriorSettings.setOption, stored, passed _ cap_pos]
    rfl
  exact .set (.set .unset started) (capped _)

theorem solved_with_ten (cap : ℝ) :
    ∃ sol, (raw.solve (ofSettings (settings 10 cap)) .fresh).result = .ok sol ∧
      sol.deltaW = 10 := by
  have start : (ofSettings (settings 10 cap)).firstShift .fresh = 10 := by
    simp [firstShift, ShiftMemory.fresh, ofSettings, settings]
  obtain ⟨sol, solved, shift, -⟩ :=
    solved (ofSettings (settings 10 cap)) .fresh (by norm_num [start])
  exact ⟨sol, solved, shift.trans start⟩

end Concave

open Exact Regularization in
/-- Under a cap of hundred the first shift of ten is within it. -/
theorem concave_shift_within_cap : (Concave.settings 10 100).Configured ∧
    ∃ sol, (Concave.raw.solve (ofSettings (Concave.settings 10 100)) .fresh).result = .ok sol ∧
      sol.deltaW = 10 ∧ sol.deltaW ≤ (Concave.settings 10 100).deltaWMax := by
  have reached : (Concave.settings 10 100).Configured :=
    Concave.settings_configured (by norm_num) (by norm_num)
  obtain ⟨sol, solved, shift⟩ := Concave.solved_with_ten 100
  obtain ⟨-, -, capped⟩ := shifts_stay_within_cap reached [] Concave.raw
  obtain ⟨-, within⟩ := capped (by norm_num [Concave.settings]) (by norm_num [Concave.settings])
  exact ⟨reached, sol, solved, shift, within sol solved⟩

open Exact Regularization in
/-- Under a cap of one the first shift of ten is tried and reported all the same. -/
theorem concave_shift_beyond_cap : (Concave.settings 10 1).Configured ∧
    ∃ sol, (Concave.raw.solve (ofSettings (Concave.settings 10 1)) .fresh).result = .ok sol ∧
      (Concave.settings 10 1).deltaWMax < sol.deltaW := by
  obtain ⟨sol, solved, shift⟩ := Concave.solved_with_ten 1
  refine ⟨Concave.settings_configured (by norm_num) one_pos, sol, solved, ?_⟩
  rw [shift]
  norm_num [Concave.settings]

end Newton

end SmoothOpt
