import Mathlib.Analysis.SpecialFunctions.Pow.Real
import SmoothOpt.Newton.System
import SmoothOpt.Proofs.Linear.Entries
import SmoothOpt.Proofs.Newton.Blocks

/-!
Inertia correction: the shifts a solve tries, and what it remembers of them.

A correction factors the matrix with one scheduled shift after another until the inertia fits or
the schedule ends. `Raises` is that loop as a relation, without a bound on its turns. In exact
arithmetic the shifts grow geometrically, so that the schedule ends and the bound of `raiseShift`
never does. A solution is then reported with the first scheduled shift that fits, and the memory
after a sequence of solves holds the last shift that was reported and how many there were.
-/
namespace SmoothOpt.Newton

open Scalar Linear

namespace Regularization

section Schedule

variable {α : Type} [Scalar α] {r : Regularization α} {st : ShiftMemory α} {w v : α} {j k : Nat}

/-- The shifts of a correction in order: the first one, then each the one after that before it,
until there is none. -/
def scheduled (r : Regularization α) (st : ShiftMemory α) : Nat → Option α
  | 0 => some (r.firstShift st)
  | k + 1 => (r.scheduled st k).bind (r.nextShift st)

theorem nextShift_eq_some (h : r.nextShift st w = some v) :
    v = r.growth st * w ∧ v ≤ r.deltaWMax := by
  rw [nextShift] at h
  split at h
  · rename_i below
    cases h
    exact ⟨rfl, below⟩
  · cases h

theorem scheduled_succ (at_k : r.scheduled st k = some w) :
    r.scheduled st (k + 1) = r.nextShift st w := by
  rw [scheduled, at_k, Option.bind_some]

/-- Only the first shift is not checked against the cap. -/
theorem scheduled_succ_le (h : r.scheduled st (k + 1) = some v) : v ≤ r.deltaWMax := by
  obtain ⟨w, -, next⟩ := Option.bind_eq_some_iff.mp h
  exact (nextShift_eq_some next).2

/-- A schedule that has ended has ended for good. -/
theorem scheduled_none_of_le (ended : r.scheduled st k = none) (le : k ≤ j) :
    r.scheduled st j = none := by
  induction le with
  | refl => exact ended
  | step _ ih => rw [scheduled, ih, Option.bind_none]

end Schedule

structure Growing (r : Regularization ℝ) : Prop where
  deltaWInit : 0 < r.deltaWInit
  deltaWMin : 0 < r.deltaWMin
  kappaPlus : 1 < r.kappaPlus
  kappaPlusBar : 1 < r.kappaPlusBar

namespace Growing

variable {r : Regularization ℝ} {w : ℝ} {k : Nat}

theorem firstShift_pos (growing : r.Growing) (st : ShiftMemory ℝ) : 0 < r.firstShift st := by
  rw [firstShift]
  split
  · exact growing.deltaWInit
  · rw [maxNum_real]
    exact lt_max_of_lt_left growing.deltaWMin

theorem one_lt_growth (growing : r.Growing) (st : ShiftMemory ℝ) : 1 < r.growth st := by
  rw [growth]
  split
  · exact growing.kappaPlusBar
  · exact growing.kappaPlus

theorem scheduled_pos (growing : r.Growing) {st : ShiftMemory ℝ}
    (at_k : r.scheduled st k = some w) : 0 < w := by
  induction k generalizing w with
  | zero =>
    cases at_k
    exact growing.firstShift_pos st
  | succ k ih =>
    obtain ⟨v, before, next⟩ := Option.bind_eq_some_iff.mp at_k
    rw [(nextShift_eq_some next).1]
    exact mul_pos (zero_lt_one.trans (growing.one_lt_growth st)) (ih before)

end Growing

/-- Growths after which the cap is met. -/
noncomputable def growthsToCap (r : Regularization ℝ) (st : ShiftMemory ℝ) : Nat :=
  ⌈Real.log (r.deltaWMax / r.firstShift st) / Real.log (r.growth st)⌉₊

theorem budget_eq (r : Regularization ℝ) (st : ShiftMemory ℝ) :
    r.budget st = r.growthsToCap st + 1 + 4095 := rfl

/-- One growth more leads past the cap. -/
theorem Growing.cap_lt {r : Regularization ℝ} (growing : r.Growing) (st : ShiftMemory ℝ) :
    r.deltaWMax < r.growth st ^ (r.growthsToCap st + 1) * r.firstShift st := by
  have first := growing.firstShift_pos st
  have growth := growing.one_lt_growth st
  obtain low | high := le_or_gt r.deltaWMax (r.firstShift st)
  · have grown : 1 < r.growth st ^ (r.growthsToCap st + 1) :=
      one_lt_pow₀ growth (Nat.succ_ne_zero _)
    exact low.trans_lt (lt_mul_of_one_lt_left first grown)
  · have cap := first.trans high
    have rate : 0 < Real.log (r.growth st) := Real.log_pos growth
    have enough : Real.log (r.deltaWMax / r.firstShift st) ≤
        r.growthsToCap st * Real.log (r.growth st) := (div_le_iff₀ rate).mp (Nat.le_ceil _)
    rw [Real.log_div cap.ne' first.ne'] at enough
    rw [← Real.log_lt_log_iff cap (by positivity), Real.log_mul (by positivity) first.ne',
      Real.log_pow, Nat.cast_succ]
    linarith

end Regularization

section Loop

variable {α : Type} [Scalar α] [DenseSolver α] {d : Dims}

/-- The matrix with these shifts has the inertia of a descent-producing system. -/
def Data.Fits (data : Data α d) (deltaW deltaC : α) : Prop :=
  (factor (data.matrix deltaW deltaC)).inertia = targetInertia d

/-- Raising the primal shift from a given one on, for as long as it takes: the shift and
decomposition found, if any, and the attempts before. -/
inductive Raises (r : Regularization α) (st : ShiftMemory α) (data : Data α d) (deltaC : α) :
    α → Option (α × ScaledEigen α (size d)) × List (Rejected α) → Prop
  | found {w : α} (fits : data.Fits w deltaC) :
      Raises r st data deltaC w (some (w, factor (data.matrix w deltaC)), [])
  | ended {w : α} (unfit : ¬data.Fits w deltaC) (last : r.nextShift st w = none) :
      Raises r st data deltaC w (none, [⟨(factor (data.matrix w deltaC)).inertia, w⟩])
  | again {w next : α} {found : Option (α × ScaledEigen α (size d))} {later : List (Rejected α)}
      (unfit : ¬data.Fits w deltaC) (goes : r.nextShift st w = some next)
      (rest : Raises r st data deltaC next (found, later)) :
      Raises r st data deltaC w
        (found, ⟨(factor (data.matrix w deltaC)).inertia, w⟩ :: later)

variable {r : Regularization α} {st : ShiftMemory α} {data : Data α d} {deltaC w : α}
  {o o' : Option (α × ScaledEigen α (size d)) × List (Rejected α)} {k : Nat}

/-- The loop ends in one way. -/
theorem Raises.unique (h : Raises r st data deltaC w o) (other : Raises r st data deltaC w o') :
    o' = o := by
  induction h generalizing o' with
  | found fits =>
    cases other with
    | found => rfl
    | ended unfit => exact absurd fits unfit
    | again unfit => exact absurd fits unfit
  | ended unfit last =>
    cases other with
    | found fits => exact absurd fits unfit
    | ended => rfl
    | again _ goes => simp [last] at goes
  | again unfit goes rest ih =>
    cases other with
    | found fits => exact absurd fits unfit
    | ended _ last => simp [last] at goes
    | again _ goes' rest' =>
      obtain rfl := Option.some.inj (goes.symm.trans goes')
      cases ih rest'
      rfl

/-- What a loop that starts with the `k`-th scheduled shift leaves: its attempts are the shifts from
there on, none of which fits, and after them comes the shift it found or none. -/
structure Followed (r : Regularization α) (st : ShiftMemory α) (data : Data α d) (deltaC : α)
    (k : Nat) (o : Option (α × ScaledEigen α (size d)) × List (Rejected α)) : Prop where
  attempts : ∀ i a, o.2[i]? = some a →
    r.scheduled st (k + i) = some a.deltaW ∧ ¬data.Fits a.deltaW deltaC
  next : r.scheduled st (k + o.2.length) = o.1.map Prod.fst
  fits : ∀ p ∈ o.1, data.Fits p.1 deltaC ∧ p.2 = factor (data.matrix p.1 deltaC)

theorem Raises.followed (h : Raises r st data deltaC w o) (at_k : r.scheduled st k = some w) :
    Followed r st data deltaC k o := by
  induction h generalizing k with
  | found fits =>
    refine ⟨fun i a member => by simp at member, at_k, ?_⟩
    rintro p ⟨⟩
    exact ⟨fits, rfl⟩
  | ended unfit last =>
    refine ⟨fun i a member => ?_, (Regularization.scheduled_succ at_k).trans last, nofun⟩
    obtain ⟨rfl, rfl⟩ : i = 0 ∧ _ = a := by simpa [List.getElem?_singleton] using member
    exact ⟨at_k, unfit⟩
  | again unfit goes rest ih =>
    obtain ⟨attempts, next, fits⟩ := ih ((Regularization.scheduled_succ at_k).trans goes)
    refine ⟨fun i a member => ?_, ?_, fits⟩
    · cases i with
      | zero =>
        cases member
        exact ⟨at_k, unfit⟩
      | succ i =>
        rw [← Nat.add_assoc, Nat.add_right_comm]
        exact attempts i a member
    · rw [List.length_cons, ← Nat.add_assoc, Nat.add_right_comm]
      exact next

end Loop

section Budget

variable {α : Type} [Scalar α] [DenseSolver α] {d : Dims} {r : Regularization α}
  {st : ShiftMemory α} {data : Data α d} {deltaC w : α}

theorem raiseShift_of_fits (fits : data.Fits w deltaC) (budget : Nat) :
    raiseShift r st data deltaC (budget + 1) w =
      (some (w, factor (data.matrix w deltaC)), []) := by
  rw [raiseShift]
  exact if_pos fits

theorem raiseShift_of_ended (unfit : ¬data.Fits w deltaC) (last : r.nextShift st w = none)
    (budget : Nat) : raiseShift r st data deltaC (budget + 1) w =
      (none, [⟨(factor (data.matrix w deltaC)).inertia, w⟩]) := by
  rw [raiseShift, last]
  exact if_neg unfit

theorem raiseShift_of_again {next : α} (unfit : ¬data.Fits w deltaC)
    (goes : r.nextShift st w = some next) (budget : Nat) :
    raiseShift r st data deltaC (budget + 1) w =
      ((raiseShift r st data deltaC budget next).1,
        ⟨(factor (data.matrix w deltaC)).inertia, w⟩ ::
          (raiseShift r st data deltaC budget next).2) := by
  rw [raiseShift, goes]
  exact if_neg unfit

end Budget

section Exits

variable {α : Type} [Scalar α] {d : Dims} {r : Regularization α} {st : ShiftMemory α}
  {data : Data α d}

theorem finish_error {e : ScaledEigen α (size d)} {deltaW deltaC : α} {fault : NewtonFault α}
    (h : finish data e deltaW deltaC = .error fault) : fault = .nonFiniteSolution := by
  unfold finish at h
  dsimp only at h
  split at h
  · cases h
  · cases h
    rfl

theorem finish_real (data : Data ℝ d) (e : ScaledEigen ℝ (size d)) (deltaW deltaC : ℝ) :
    finish data e deltaW deltaC = .ok (.ofVector (e.solve data.rhs) deltaW deltaC) := by
  simp [finish]

variable [DenseSolver α]

/-- The exits of a solve. A shift that was raised is remembered before the solution is looked at. -/
inductive Exit (r : Regularization α) (st : ShiftMemory α) (data : Data α d) :
    Outcome α d → Prop
  | irregular (irregular : data.isFinite = false) : Exit r st data ⟨.error .nonFiniteMatrix, st, []⟩
  | plain (fits : data.Fits 0 (unraised r data).1) : Exit r st data
      ⟨finish data (factor (data.matrix 0 (unraised r data).1)) 0 (unraised r data).1, st, []⟩
  | exhausted {rejected : List (Rejected α)} (unfit : ¬data.Fits 0 (unraised r data).1)
      (raised : raiseShift r st data (unraised r data).1 (r.budget st) (r.firstShift st) =
        (none, rejected)) :
      Exit r st data ⟨.error (.inertiaCorrectionFailed r.deltaWMax), st, rejected⟩
  | raised {deltaW : α} {e : ScaledEigen α (size d)} {rejected : List (Rejected α)}
      (unfit : ¬data.Fits 0 (unraised r data).1)
      (raised : raiseShift r st data (unraised r data).1 (r.budget st) (r.firstShift st) =
        (some (deltaW, e), rejected)) :
      Exit r st data ⟨finish data e deltaW (unraised r data).1, st.bumped deltaW, rejected⟩

theorem solve_exit (r : Regularization α) (st : ShiftMemory α) (data : Data α d) :
    Exit r st data (solve r st data) := by
  have plain := unraised_eq r data
  unfold solve
  split
  · rename_i irregular
    exact .irregular (by simpa using irregular)
  · dsimp only
    rw [plain]
    split
    · rename_i fits
      exact .plain fits
    · rename_i unfit
      split
      · rename_i raised
        exact .exhausted unfit raised
      · rename_i raised
        exact .raised unfit raised

/-- A solve that fails leaves the memory as it was, unless its solution was not finite. -/
theorem memory_of_fault {fault : NewtonFault α} (failed : (solve r st data).result = .error fault)
    (other : fault ≠ .nonFiniteSolution) : (solve r st data).memory = st := by
  have exit := solve_exit r st data
  generalize solve r st data = o at exit failed
  cases exit with
  | irregular => rfl
  | plain => rfl
  | exhausted => rfl
  | raised => exact absurd (finish_error failed) other

variable {raw : RawData α}

theorem RawData.solve_of_sized {data : Data α raw.dims} (h : raw.sized? = some data)
    (r : Regularization α) (st : ShiftMemory α) : raw.solve r st = Newton.solve r st data := by
  rw [solve, h]

theorem RawData.solve_of_unsized (h : raw.sized? = none) (r : Regularization α)
    (st : ShiftMemory α) : raw.solve r st = ⟨.error (.dimensionMismatch raw.dims), st, []⟩ := by
  rw [solve, h]

theorem RawData.memory_of_fault {fault : NewtonFault α}
    (failed : (raw.solve r st).result = .error fault) (other : fault ≠ .nonFiniteSolution) :
    (raw.solve r st).memory = st := by
  cases sizes : raw.sized? with
  | none => rw [solve_of_unsized sizes]
  | some data =>
    rw [solve_of_sized sizes] at failed ⊢
    exact Newton.memory_of_fault failed other

end Exits

section Sequences

variable {α : Type} [Scalar α]

/-- The primal shift of a solution that needed one. -/
def Outcome.raised {d : Dims} (o : Outcome α d) : Option α :=
  match o.result with
  | .ok sol => if 0 < sol.deltaW then some sol.deltaW else none
  | .error _ => none

theorem Outcome.raised_eq_some {d : Dims} {o : Outcome α d} {w : α} :
    o.raised = some w ↔ ∃ sol, o.result = .ok sol ∧ 0 < sol.deltaW ∧ sol.deltaW = w := by
  cases result : o.result with
  | error _ => simp [raised, result]
  | ok sol => simp [raised, result]

variable [DenseSolver α]

/-- The memory after solving one system after another. -/
def memoryFrom (r : Regularization α) : ShiftMemory α → List (RawData α) → ShiftMemory α
  | st, [] => st
  | st, raw :: rest => memoryFrom r (raw.solve r st).memory rest

/-- The positive primal shifts these solves report, in order. -/
def raisedFrom (r : Regularization α) : ShiftMemory α → List (RawData α) → List α
  | _, [] => []
  | st, raw :: rest =>
    (raw.solve r st).raised.toList ++ raisedFrom r (raw.solve r st).memory rest

end Sequences

section Exact

variable [DenseSolver ℝ] {d : Dims} {r : Regularization ℝ} {st : ShiftMemory ℝ}
  {data : Data ℝ d} {deltaC w : ℝ}

/-- With a budget that leads past the cap, the loop ends by itself. -/
theorem raiseShift_raises (growing : r.Growing) (extra n : Nat) (positive : 0 < w)
    (past : r.deltaWMax < r.growth st ^ (n + 1) * w) :
    Raises r st data deltaC w (raiseShift r st data deltaC (n + 1 + extra) w) := by
  induction n generalizing w with
  | zero =>
    rw [Nat.zero_add, pow_one] at past
    rw [Nat.zero_add, Nat.add_comm]
    by_cases fits : data.Fits w deltaC
    · rw [raiseShift_of_fits fits]
      exact .found fits
    · have last : r.nextShift st w = none := if_neg past.not_ge
      rw [raiseShift_of_ended fits last]
      exact .ended fits last
  | succ n ih =>
    rw [Nat.add_right_comm]
    by_cases fits : data.Fits w deltaC
    · rw [raiseShift_of_fits fits]
      exact .found fits
    cases next : r.nextShift st w with
    | none =>
      rw [raiseShift_of_ended fits next]
      exact .ended fits next
    | some v =>
      obtain ⟨rfl, -⟩ := Regularization.nextShift_eq_some next
      have growth := zero_lt_one.trans (growing.one_lt_growth st)
      rw [raiseShift_of_again fits next]
      refine .again fits next (ih (mul_pos growth positive) ?_)
      rwa [← mul_assoc, ← pow_succ]

/-- A correction ends by itself, with a shift that fits or at the end of the schedule. -/
theorem correction_raises (growing : r.Growing) (st : ShiftMemory ℝ) (data : Data ℝ d)
    (deltaC : ℝ) : Raises r st data deltaC (r.firstShift st)
      (raiseShift r st data deltaC (r.budget st) (r.firstShift st)) := by
  rw [Regularization.budget_eq]
  exact raiseShift_raises growing _ _ (growing.firstShift_pos st) (growing.cap_lt st)

/-- `deltaW` is the first scheduled shift whose matrix has the right inertia. -/
def FirstFit (r : Regularization ℝ) (st : ShiftMemory ℝ) (data : Data ℝ d)
    (deltaC deltaW : ℝ) : Prop :=
  ∃ k, r.scheduled st k = some deltaW ∧ data.Fits deltaW deltaC ∧
    ∀ j < k, ∀ v ∈ r.scheduled st j, ¬data.Fits v deltaC

theorem Followed.unfit_of_lt
    {o : Option (ℝ × ScaledEigen ℝ (size d)) × List (Rejected ℝ)}
    (h : Followed r st data deltaC 0 o) {j : Nat} (early : j < o.2.length) {v : ℝ}
    (at_j : r.scheduled st j = some v) : ¬data.Fits v deltaC := by
  obtain ⟨same, unfit⟩ := h.attempts j _ (List.getElem?_eq_getElem early)
  rw [Nat.zero_add] at same
  obtain rfl := Option.some.inj (at_j.symm.trans same)
  exact unfit

theorem Followed.firstFit {deltaW : ℝ} {e : ScaledEigen ℝ (size d)} {rejected : List (Rejected ℝ)}
    (h : Followed r st data deltaC 0 (some (deltaW, e), rejected)) :
    FirstFit r st data deltaC deltaW := by
  refine ⟨rejected.length, ?_, (h.fits _ rfl).1, fun j early v at_j => h.unfit_of_lt early at_j⟩
  simpa using h.next

theorem Followed.unfit {rejected : List (Rejected ℝ)}
    (h : Followed r st data deltaC 0 (none, rejected)) {j : Nat} {v : ℝ}
    (at_j : r.scheduled st j = some v) : ¬data.Fits v deltaC := by
  by_cases early : j < rejected.length
  · exact h.unfit_of_lt early at_j
  · have next := h.next
    rw [Nat.zero_add, Option.map_none] at next
    rw [Regularization.scheduled_none_of_le next (not_lt.mp early)] at at_j
    cases at_j

/-- The exits of a solve in exact arithmetic, where every entry and every solution is finite. -/
inductive Settles (r : Regularization ℝ) (st : ShiftMemory ℝ) (data : Data ℝ d) :
    Outcome ℝ d → Prop
  | plain {sol : Solution ℝ d} (fits : data.Fits 0 sol.deltaC) (deltaW : sol.deltaW = 0)
      (deltaC : sol.deltaC = (unraised r data).1) : Settles r st data ⟨.ok sol, st, []⟩
  | exhausted {rejected : List (Rejected ℝ)} (unfit : ¬data.Fits 0 (unraised r data).1)
      (followed : Followed r st data (unraised r data).1 0 (none, rejected)) :
      Settles r st data ⟨.error (.inertiaCorrectionFailed r.deltaWMax), st, rejected⟩
  | raised {sol : Solution ℝ d} {e : ScaledEigen ℝ (size d)} {rejected : List (Rejected ℝ)}
      (unfit : ¬data.Fits 0 sol.deltaC) (deltaC : sol.deltaC = (unraised r data).1)
      (followed : Followed r st data sol.deltaC 0 (some (sol.deltaW, e), rejected)) :
      Settles r st data ⟨.ok sol, st.bumped sol.deltaW, rejected⟩

theorem solve_settles (growing : r.Growing) (st : ShiftMemory ℝ) (data : Data ℝ d) :
    Settles r st data (solve r st data) := by
  have loop := (correction_raises growing st data (unraised r data).1).followed (k := 0) rfl
  have exit := solve_exit r st data
  generalize solve r st data = o at exit
  cases exit with
  | irregular irregular => simp [Data.isFinite] at irregular
  | plain fits =>
    rw [finish_real]
    exact .plain fits rfl rfl
  | exhausted unfit raised =>
    rw [raised] at loop
    exact .exhausted unfit loop
  | raised unfit raised =>
    rw [raised] at loop
    rw [finish_real]
    exact .raised unfit rfl loop

theorem Followed.pos (growing : r.Growing) {e : ScaledEigen ℝ (size d)}
    {rejected : List (Rejected ℝ)}
    (h : Followed r st data deltaC 0 (some (w, e), rejected)) : 0 < w :=
  growing.scheduled_pos h.next

/-- The memory changes with a solution that needed a shift, and with nothing else. -/
theorem RawData.memory_eq (growing : r.Growing) (st : ShiftMemory ℝ) (raw : RawData ℝ) :
    (raw.solve r st).memory = (raw.solve r st).raised.elim st st.bumped := by
  cases sizes : raw.sized? with
  | none =>
    rw [solve_of_unsized sizes]
    rfl
  | some data =>
    rw [solve_of_sized sizes]
    have settles := solve_settles growing st data
    generalize Newton.solve r st data = o at settles
    cases settles with
    | plain fits deltaW => simp [Outcome.raised, deltaW]
    | exhausted => rfl
    | raised unfit deltaC followed => simp [Outcome.raised, followed.pos growing]

/-- The memory after a sequence of solves: the last positive shift they report, if any, and one
more for each. -/
theorem memoryFrom_eq (growing : r.Growing) (st : ShiftMemory ℝ) (calls : List (RawData ℝ)) :
    memoryFrom r st calls = ⟨(raisedFrom r st calls).getLast?.getD st.deltaWLast,
      st.primalBumps + (raisedFrom r st calls).length⟩ := by
  induction calls generalizing st with
  | nil => rfl
  | cons raw rest ih =>
    rw [memoryFrom, raisedFrom, ih, raw.memory_eq growing]
    cases (raw.solve r st).raised with
    | none => simp
    | some w => simp [List.getLast?_cons, ShiftMemory.bumped, Nat.add_assoc, Nat.add_comm]

theorem raisedFrom_pos (r : Regularization ℝ) (st : ShiftMemory ℝ) (calls : List (RawData ℝ)) :
    ∀ w ∈ raisedFrom r st calls, 0 < w := by
  induction calls generalizing st with
  | nil => nofun
  | cons raw rest ih =>
    intro w member
    rw [raisedFrom, List.mem_append, Option.mem_toList] at member
    obtain here | later := member
    · obtain ⟨sol, -, positive, rfl⟩ := Outcome.raised_eq_some.mp here
      exact positive
    · exact ih _ w later

/-- The shifts of a solution belong to its data. The matrix they give has the right inertia. The
dual one is used when the plain matrix is singular. The primal one is zero if that suffices, and
otherwise the first of the schedule that does. -/
structure Corrected (r : Regularization ℝ) (st : ShiftMemory ℝ) (data : Data ℝ d)
    (sol : Solution ℝ d) : Prop where
  inertia : (factor (data.matrix sol.deltaW sol.deltaC)).inertia =
    ⟨d.n + d.mIneq, d.mEq + d.mIneq, 0⟩
  dual : sol.deltaC =
    if 0 < (factor (data.matrix 0 0)).inertia.zero then r.dualShift data.mu else 0
  primal : sol.deltaW = 0 ∧ data.Fits 0 sol.deltaC ∨
    ¬data.Fits 0 sol.deltaC ∧ FirstFit r st data sol.deltaC sol.deltaW

theorem unraised_deltaC (r : Regularization ℝ) (data : Data ℝ d) : (unraised r data).1 =
    if 0 < (factor (data.matrix 0 0)).inertia.zero then r.dualShift data.mu else 0 := by
  unfold unraised
  dsimp only
  split
  · rfl
  · rfl

/-- Neither the plain matrix nor a scheduled shift has the right inertia. -/
def Uncorrectable (r : Regularization ℝ) (st : ShiftMemory ℝ) (data : Data ℝ d) : Prop :=
  ¬data.Fits 0 (unraised r data).1 ∧
    ∀ k, ∀ w ∈ r.scheduled st k, ¬data.Fits w (unraised r data).1

theorem Settles.answer {o : Outcome ℝ d} (h : Settles r st data o) :
    (∃ sol, o.result = .ok sol ∧ Corrected r st data sol) ∨
      o.result = .error (.inertiaCorrectionFailed r.deltaWMax) ∧ Uncorrectable r st data := by
  cases h with
  | @plain sol fits deltaW deltaC =>
    refine .inl ⟨sol, rfl, ?_, deltaC.trans (unraised_deltaC r data), .inl ⟨deltaW, fits⟩⟩
    rw [deltaW]
    exact fits
  | exhausted unfit followed => exact .inr ⟨rfl, unfit, fun _ _ => followed.unfit⟩
  | @raised sol _ _ unfit deltaC followed =>
    exact .inl ⟨sol, rfl, (followed.fits _ rfl).1, deltaC.trans (unraised_deltaC r data),
      .inr ⟨unfit, followed.firstFit⟩⟩

/-- After any solves the memory holds the last positive primal shift that was reported, or zero if
none was, and their number. From there every correction ends by itself, and a solve reports a
solution with the shifts its data asks for, or that no scheduled shift helps, or sizes that
disagree. A solve that fails leaves the memory alone; that holds for any scalar, apart from a
solution that is not finite. -/
theorem corrections_follow_schedule (growing : r.Growing) (calls : List (RawData ℝ)) :
    let st := memoryFrom r .fresh calls
    let raised := raisedFrom r .fresh calls
    (st.deltaWLast = 0 ↔ raised = []) ∧ (∀ w ∈ raised.getLast?, st.deltaWLast = w) ∧
      st.primalBumps = raised.length ∧
      (∀ (d : Dims) (data : Data ℝ d) (deltaC : ℝ)
        (o : Option (ℝ × ScaledEigen ℝ (size d)) × List (Rejected ℝ)),
        Raises r st data deltaC (r.firstShift st) o ↔
          o = raiseShift r st data deltaC (r.budget st) (r.firstShift st)) ∧
      (∀ raw : RawData ℝ, raw.sized? = none →
        (raw.solve r st).result = .error (.dimensionMismatch raw.dims)) ∧
      (∀ (raw : RawData ℝ) (data : Data ℝ raw.dims), raw.sized? = some data →
        (∃ sol, (raw.solve r st).result = .ok sol ∧ Corrected r st data sol) ∨
          (raw.solve r st).result = .error (.inertiaCorrectionFailed r.deltaWMax) ∧
            Uncorrectable r st data) ∧
      (∀ (raw : RawData ℝ) (fault : NewtonFault ℝ), (raw.solve r st).result = .error fault →
        (raw.solve r st).memory = st) ∧
      ∀ (α : Type) [Scalar α] [DenseSolver α] (r : Regularization α) (st : ShiftMemory α)
        (raw : RawData α) (fault : NewtonFault α), (raw.solve r st).result = .error fault →
        fault ≠ .nonFiniteSolution → (raw.solve r st).memory = st := by
  dsimp only
  have memory := memoryFrom_eq growing .fresh calls
  have positive := raisedFrom_pos r .fresh calls
  generalize memoryFrom r .fresh calls = st at memory ⊢
  generalize raisedFrom r .fresh calls = raised at memory positive ⊢
  refine ⟨?_, ?_, ?_, fun d data deltaC o => ?_, fun raw unsized => ?_, fun raw data sized => ?_,
    fun raw fault failed => ?_, fun _ _ _ _ _ _ _ => RawData.memory_of_fault⟩
  · rw [memory]
    cases last : raised.getLast? with
    | none => simpa [ShiftMemory.fresh] using List.getLast?_eq_none_iff.mp last
    | some w =>
      have member := List.mem_of_getLast? last
      exact ⟨fun zero => absurd zero (positive w member).ne',
        fun empty => by simp [empty] at member⟩
  · intro w last
    rw [memory, Option.mem_def.mp last]
    rfl
  · rw [memory]
    exact Nat.zero_add _
  · have ends := correction_raises growing st data deltaC
    exact ⟨ends.unique, fun same => same ▸ ends⟩
  · rw [RawData.solve_of_unsized unsized]
  · rw [RawData.solve_of_sized sized]
    exact (solve_settles growing st data).answer
  · rw [raw.memory_eq growing]
    simp [Outcome.raised, failed]

end Exact

namespace Concave

open Exact

noncomputable def raw : RawData ℝ :=
  ⟨[[-1]], [], [], [0], [], [1], [], [], [], 1⟩

noncomputable def data : Data ℝ ⟨1, 0, 0⟩ where
  hess := .replicate _ (.replicate _ (-1))
  jacEq := Dense.zeros
  jacIneq := Dense.zeros
  sigmaX := .replicate _ 0
  sigmaS := .replicate _ 0
  rhsX := .replicate _ 1
  rhsS := .replicate _ 0
  rhsEq := .replicate _ 0
  rhsIneq := .replicate _ 0
  mu := 1

theorem fits_iff (deltaW deltaC : ℝ) : data.Fits deltaW deltaC ↔ 1 < deltaW := by
  have entry := congrFun (congrFun (data.matrix_eq_blocks deltaW 0) (.inl (.inl 0)))
    (.inl (.inl 0))
  have pivot : (data.matrix deltaW 0).entry 0 0 = -1 + deltaW := by
    refine entry.trans ?_
    simp [Data.blocks, Data.primalBlock, data, Dense.entry]
  rw [Data.Fits, Data.matrix_of_unconstrained]
  refine (factor_single_iff exactSolver_exact _).trans ?_
  rw [pivot, lt_neg_add_iff_add_lt, add_zero]

/-- A first shift beyond one is taken and remembered. -/
theorem solved (r : Regularization ℝ) (st : ShiftMemory ℝ) (large : 1 < r.firstShift st) :
    ∃ sol, (raw.solve r st).result = .ok sol ∧ sol.deltaW = r.firstShift st ∧
      (raw.solve r st).memory = st.bumped (r.firstShift st) := by
  have unfit : (unraised r data).2.inertia ≠ targetInertia ⟨1, 0, 0⟩ := by
    rw [unraised_eq]
    intro fits
    exact absurd ((fits_iff _ _).mp fits) (by norm_num)
  obtain ⟨sol, shift, result, memory⟩ := solve_of_first_shift r st unfit ((fits_iff _ _).mpr large)
  exact ⟨sol, result, shift, memory⟩

noncomputable def policy (first : ℝ) : Regularization ℝ :=
  { (.default : Regularization ℝ) with deltaWInit := first }

end Concave

open Exact in
/-- The same system twice: ten helps, and a third of it does the second time. -/
theorem concave_corrections : (Concave.policy 10).Growing ∧
    raisedFrom (Concave.policy 10) .fresh [Concave.raw, Concave.raw] = [10, 10 / 3] ∧
    (memoryFrom (Concave.policy 10) .fresh [Concave.raw, Concave.raw]).deltaWLast = 10 / 3 ∧
    (memoryFrom (Concave.policy 10) .fresh [Concave.raw, Concave.raw]).primalBumps = 2 := by
  have growing : (Concave.policy 10).Growing := by
    constructor <;> norm_num [Concave.policy, Regularization.default]
  have start : (Concave.policy 10).firstShift .fresh = 10 := by
    simp [Regularization.firstShift, ShiftMemory.fresh, Concave.policy]
  have third : (Concave.policy 10).firstShift (ShiftMemory.fresh.bumped 10) = 10 / 3 := by
    norm_num [Regularization.firstShift, ShiftMemory.bumped, Concave.policy, Regularization.default]
  obtain ⟨sol, solved, shift, memory⟩ :=
    Concave.solved (Concave.policy 10) .fresh (by norm_num [start])
  obtain ⟨sol', solved', shift', -⟩ :=
    Concave.solved (Concave.policy 10) (ShiftMemory.fresh.bumped 10) (by norm_num [third])
  rw [start] at shift memory
  rw [third] at shift'
  have first := Outcome.raised_eq_some.mpr ⟨sol, solved, by norm_num [shift], shift⟩
  have second := Outcome.raised_eq_some.mpr ⟨sol', solved', by norm_num [shift'], shift'⟩
  have reported : raisedFrom (Concave.policy 10) .fresh [Concave.raw, Concave.raw] =
      [10, 10 / 3] := by
    simp only [raisedFrom, first, memory, second, Option.toList_some, List.append_nil,
      List.cons_append, List.nil_append]
  obtain ⟨-, last, count, -⟩ :=
    corrections_follow_schedule growing [Concave.raw, Concave.raw]
  rw [reported] at last count
  exact ⟨growing, reported, last _ rfl, count⟩

end SmoothOpt.Newton
