import Mathlib
import SmoothOpt.Proofs.Barrier.Coherence
import SmoothOpt.Proofs.Barrier.Positivity

/-!
The loop that lowers the barrier parameter.

The barrier update repeats while the barrier problem is solved well enough, with an error that is
recomputed for each new parameter and may stay small forever. It ends nevertheless: a decrease is
by the factor `kappaMu` at least or ends at the floor, and from the floor on there is none.
`Lowers` is the loop as a relation, without a budget; the update stays within its own.
-/
namespace SmoothOpt

open Scalar Linear

namespace Schedule

variable {settings : InteriorSettings ℝ} {mu : ℝ}

theorem muMin_eq (settings : InteriorSettings ℝ) :
    (ofSettings settings).muMin = settings.tolerance / 10 := by
  norm_num [ofSettings]

theorem muMin_pos (inRange : settings.InRange) : 0 < (ofSettings settings).muMin := by
  rw [muMin_eq]
  exact div_pos inRange.tolerance (by norm_num)

theorem muMin_le_next (c : Schedule ℝ) (mu : ℝ) : c.muMin ≤ c.next mu := by
  rw [next, maxNum_real]
  exact le_max_left _ _

theorem next_le (c : Schedule ℝ) (mu : ℝ) : c.next mu ≤ max c.muMin (c.kappaMu * mu) := by
  rw [next, maxNum_real, minNum_real]
  exact max_le_max le_rfl (min_le_left _ _)

/-- The parameter can be decreased exactly above its floor. -/
theorem le_next_iff (inRange : settings.InRange) (mu_pos : 0 < mu) :
    mu ≤ (ofSettings settings).next mu ↔ mu ≤ (ofSettings settings).muMin := by
  constructor
  · intro stuck
    have smaller : settings.kappaMu * mu < mu := mul_lt_of_lt_one_left mu_pos inRange.kappaMu.2
    exact (le_max_iff.mp (stuck.trans (next_le _ mu))).resolve_right smaller.not_ge
  · intro low
    exact low.trans (muMin_le_next _ mu)

noncomputable def stepsToFloor (c : Schedule ℝ) (mu : ℝ) : Nat :=
  ⌈Real.log (mu / c.muMin) / -Real.log c.kappaMu⌉₊

theorem budget_eq (c : Schedule ℝ) (mu : ℝ) :
    c.budget mu = c.stepsToFloor mu + 18446744073709551616 := rfl

theorem pow_stepsToFloor_le (inRange : settings.InRange) (mu_pos : 0 < mu) :
    (ofSettings settings).kappaMu ^ (ofSettings settings).stepsToFloor mu * mu ≤
      (ofSettings settings).muMin := by
  have floor_pos := muMin_pos inRange
  have factor : 0 < (ofSettings settings).kappaMu := inRange.kappaMu.1
  have rate : 0 < -Real.log (ofSettings settings).kappaMu :=
    neg_pos.mpr (Real.log_neg factor inRange.kappaMu.2)
  have enough := (div_le_iff₀ rate).mp (Nat.le_ceil
    (Real.log (mu / (ofSettings settings).muMin) / -Real.log (ofSettings settings).kappaMu))
  rw [← Real.log_le_log_iff (by positivity) floor_pos, Real.log_mul (by positivity) mu_pos.ne',
    Real.log_pow]
  rw [Real.log_div mu_pos.ne' floor_pos.ne'] at enough
  rw [stepsToFloor, Real.log_div mu_pos.ne' floor_pos.ne']
  linarith

end Schedule

namespace Barrier

variable {σ : Type} {d : Dims}

section Loop

variable {α : Type} [Scalar α] {c : Setup α σ d} {s s' : State α σ d}

def State.lowerBarrier (s : State α σ d) (c : Setup α σ d) : State α σ d :=
  (s.lowered c s.world).recordFrom c 3 (.barrierDecreased (c.schedule.next s.mu)
    (c.schedule.tau (c.schedule.next s.mu))
    (s.resid.withBarrier s.curr c.bounds (c.schedule.next s.mu)).barOverall)

theorem State.lowerBarrier_eq (s : State α σ d) (c : Setup α σ d) :
    ∃ w, s.lowerBarrier c = s.lowered c w := recordFrom_eq (s.lowered c s.world) c 3 _

/-- The barrier problem is not solved well enough, or its parameter would not decrease. -/
def State.KeepsBarrier (s : State α σ d) (c : Setup α σ d) : Prop :=
  c.schedule.subproblemSolved s.resid.barOverall s.mu = false ∨ s.mu ≤ c.schedule.next s.mu

/-- The barrier parameter is decreased `k` times, until its test tells to keep it. -/
inductive Lowers (c : Setup α σ d) : Nat → State α σ d → State α σ d → Prop
  | done {s : State α σ d} (keeps : s.KeepsBarrier c) : Lowers c 0 s s
  | again {k : Nat} {s s' : State α σ d} (goes : ¬s.KeepsBarrier c)
      (rest : Lowers c k (s.lowerBarrier c) s') : Lowers c (k + 1) s s'

theorem decreaseBarrier_of_keeps (keeps : s.KeepsBarrier c) (budget : Nat) :
    s.decreaseBarrier c budget = s := by
  cases budget with
  | zero => rfl
  | succ budget =>
    rw [State.decreaseBarrier]
    obtain unsolved | stuck := keeps
    · rw [unsolved]
      rfl
    · simp only [if_pos stuck, ite_self]

theorem decreaseBarrier_of_goes (goes : ¬s.KeepsBarrier c) (budget : Nat) :
    s.decreaseBarrier c (budget + 1) = (s.lowerBarrier c).decreaseBarrier c budget := by
  rw [State.KeepsBarrier, not_or, Bool.not_eq_false] at goes
  rw [State.decreaseBarrier]
  simp only [goes.1, if_neg goes.2, if_true]
  rfl

/-- The loop ends in one way. -/
theorem Lowers.unique {k j : Nat} {s₁ s₂ : State α σ d} (h : Lowers c k s s₁)
    (other : Lowers c j s s₂) : j = k ∧ s₂ = s₁ := by
  induction h generalizing j with
  | done keeps =>
    cases other with
    | done => exact ⟨rfl, rfl⟩
    | again goes => exact absurd keeps goes
  | again goes rest ih =>
    cases other with
    | done keeps => exact absurd keeps goes
    | again _ rest' =>
      obtain ⟨rfl, rfl⟩ := ih rest'
      exact ⟨rfl, rfl⟩

theorem Lowers.keeps {k : Nat} (h : Lowers c k s s') : s'.KeepsBarrier c := by
  induction h with
  | done keeps => exact keeps
  | again goes rest ih => exact ih

end Loop

section Real

variable {c : Setup ℝ σ d} {s s' : State ℝ σ d}

theorem State.lowerBarrier_mu (s : State ℝ σ d) (c : Setup ℝ σ d) :
    (s.lowerBarrier c).mu = c.schedule.next s.mu := by
  obtain ⟨w, lowered⟩ := s.lowerBarrier_eq c
  rw [lowered]
  rfl

/-- A budget that leads to the floor lets the loop end by its own test. -/
theorem decreaseBarrier_lowers (inRange : c.settings.InRange) (extra n : Nat) :
    ∀ s : State ℝ σ d, 0 < s.mu → c.schedule.kappaMu ^ n * s.mu ≤ c.schedule.muMin →
      ∃ k ≤ n, Lowers c k s (s.decreaseBarrier c (n + extra)) := by
  induction n with
  | zero =>
    intro s mu_pos low
    rw [pow_zero, one_mul] at low
    have keeps : s.KeepsBarrier c := .inr ((Schedule.le_next_iff inRange mu_pos).mpr low)
    rw [decreaseBarrier_of_keeps keeps]
    exact ⟨0, le_rfl, .done keeps⟩
  | succ n ih =>
    intro s mu_pos low
    by_cases keeps : s.KeepsBarrier c
    · rw [decreaseBarrier_of_keeps keeps]
      exact ⟨0, Nat.zero_le _, .done keeps⟩
    · have factor : 0 < c.schedule.kappaMu := inRange.kappaMu.1
      have power : c.schedule.kappaMu ^ n * c.schedule.muMin ≤ c.schedule.muMin :=
        mul_le_of_le_one_left (Schedule.muMin_pos inRange).le
          (pow_le_one₀ factor.le inRange.kappaMu.2.le)
      have lower : c.schedule.kappaMu ^ n * (s.lowerBarrier c).mu ≤ c.schedule.muMin := by
        rw [State.lowerBarrier_mu]
        calc c.schedule.kappaMu ^ n * c.schedule.next s.mu
            ≤ c.schedule.kappaMu ^ n * max c.schedule.muMin (c.schedule.kappaMu * s.mu) := by
              gcongr
              exact Schedule.next_le _ _
          _ ≤ c.schedule.muMin := by
              rw [mul_max_of_nonneg _ _ (by positivity), ← mul_assoc, ← pow_succ]
              exact max_le power low
      have next_pos : 0 < (s.lowerBarrier c).mu := by
        rw [State.lowerBarrier_mu]
        exact Schedule.next_pos inRange s.mu
      obtain ⟨k, within, lowers⟩ := ih (s.lowerBarrier c) next_pos lower
      rw [Nat.add_right_comm, decreaseBarrier_of_goes keeps]
      exact ⟨k + 1, Nat.succ_le_succ within, .again keeps lowers⟩

/-- The barrier update ends by its own test, after at most as many decreases as lead to the floor. -/
theorem updateBarrier_lowers (inRange : c.settings.InRange) (mu_pos : 0 < s.mu) :
    ∃ k ≤ c.schedule.stepsToFloor s.mu, Lowers c k s (s.updateBarrier c) := by
  rw [State.updateBarrier, Schedule.budget_eq]
  exact decreaseBarrier_lowers inRange _ _ s mu_pos (Schedule.pow_stepsToFloor_le inRange mu_pos)

/-- At its end the error is too large for the parameter, or the parameter is at its floor. -/
theorem State.KeepsBarrier.exit (inRange : c.settings.InRange) (mu_pos : 0 < s.mu)
    (keeps : s.KeepsBarrier c) :
    c.settings.kappaEps * s.mu < s.resid.barOverall ∨ s.mu ≤ c.settings.tolerance / 10 := by
  obtain unsolved | stuck := keeps
  · exact .inl (not_le.mp (of_decide_eq_false unsolved))
  · rw [← Schedule.muMin_eq]
    exact .inr ((Schedule.le_next_iff inRange mu_pos).mp stuck)

end Real

end Barrier

end SmoothOpt
