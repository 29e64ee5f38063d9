import Mathlib.Analysis.SpecialFunctions.Pow.Real
import SmoothOpt.Proofs.Barrier.Advance
import SmoothOpt.Proofs.Scalar.Exact

/-!
Which trials a line search makes, and how it ends.

A search halves its step length until a trial passes the test, and it ends with its `k`-th trial in
one of three ways: the trial is accepted, it fails, or it is rejected and no further one is due.
`Ends` lists them. The trials before the `k`-th were all rejected, which `Rejects` follows through
the states of the callback. A search that notes its trials shows that these are all it makes.
-/
namespace SmoothOpt

open Scalar

section Halving

variable {α : Type} [Scalar α]

theorem halved_succ (alpha : α) (k : Nat) : halved alpha (k + 1) = halved alpha k * 0.5 := by
  induction k generalizing alpha with
  | zero => rfl
  | succ k ih => exact ih (alpha * 0.5)

/-- In exact arithmetic the step lengths are the first one divided by the powers of two. -/
theorem halved_real (alpha : ℝ) (k : Nat) : halved alpha k = alpha / 2 ^ k := by
  induction k with
  | zero => simp [halved]
  | succ k ih =>
    rw [halved_succ, ih, pow_succ]
    ring

end Halving

namespace LineSearch

variable {α : Type} [Scalar α] {l : LineSearch α} {filter : Filter α}
  {current trial : Measures α} {alpha slope : α} {kind : StepKind}

/-- What a trial has to meet to be accepted in a given way. -/
def Passes (l : LineSearch α) (filter : Filter α) (current trial : Measures α) (alpha slope : α)
    (kind : StepKind) : Prop :=
  let switches := current.theta ≤ l.thetaMin ∧ slope < 0 ∧
    l.delta * pow current.theta l.sTheta < alpha * pow (-slope) l.sPhi
  trial.theta ≤ l.thetaMax ∧ isFinite trial.phi = true ∧
    (∀ pair ∈ filter.entries, ¬((1 - filter.gammaTheta) * pair.1 ≤ trial.theta ∧
      pair.2 - filter.gammaPhi * pair.1 ≤ trial.phi)) ∧
    (kind = .armijo ∧ switches ∧ trial.phi ≤ current.phi + l.etaPhi * alpha * slope ∨
      kind = .filter ∧ ¬switches ∧ (trial.theta ≤ (1 - l.gammaTheta) * current.theta ∨
        trial.phi ≤ current.phi - l.gammaPhi * current.theta))

theorem accept_eq_some_iff :
    l.accept filter current trial alpha slope = some kind ↔
      l.Passes filter current trial alpha slope kind := by
  have switches : (current.theta ≤ l.thetaMin ∧ l.switching alpha current.theta slope = true) ↔
      (current.theta ≤ l.thetaMin ∧ slope < 0 ∧
        l.delta * pow current.theta l.sTheta < alpha * pow (-slope) l.sPhi) := by
    simp [switching]
  have free : filter.dominates trial.theta trial.phi = false ↔ ∀ pair ∈ filter.entries,
      ¬((1 - filter.gammaTheta) * pair.1 ≤ trial.theta ∧
        pair.2 - filter.gammaPhi * pair.1 ≤ trial.phi) := by
    simp [Filter.dominates, List.any_eq_false]
  have capped : (!decide (trial.theta ≤ l.thetaMax) || !isFinite trial.phi) = true ↔
      ¬(trial.theta ≤ l.thetaMax ∧ isFinite trial.phi = true) := by
    simp [imp_iff_not_or]
  simp only [accept, Passes, ← free, ← switches, capped]
  by_cases fits : trial.theta ≤ l.thetaMax ∧ isFinite trial.phi = true
  case neg =>
    rw [if_pos fits]
    exact ⟨nofun, fun h => absurd ⟨h.1, h.2.1⟩ fits⟩
  rw [if_neg (not_not_intro fits)]
  cases filter.dominates trial.theta trial.phi with
  | true => simp
  | false =>
    by_cases armijo : current.theta ≤ l.thetaMin ∧ l.switching alpha current.theta slope = true
    · simp [fits, armijo, and_comm, eq_comm (a := kind)]
    · simp [fits, armijo, and_comm, eq_comm (a := kind)]

theorem not_tiny_of_passes (passes : l.Passes filter current trial alpha slope kind) :
    kind ≠ .tiny := by
  obtain ⟨-, -, -, ⟨rfl, -⟩ | ⟨rfl, -⟩⟩ := passes
  · decide
  · decide

end LineSearch

/-- A search for a step length: its rule and all that it is given. -/
structure Search (α τ : Type) where
  rule : LineSearch α
  filter : Filter α
  alphaMax : α
  current : Measures α
  slope : α
  trial : α → Step (Failure α) τ (Measures α)
  onReject : Rejection α → τ → τ

namespace Search

variable {α τ : Type} [Scalar α]

def run (s : Search α τ) : Step (Failure α) τ (Accepted α) :=
  s.rule.backtrack s.filter s.alphaMax s.current s.slope s.trial s.onReject

def length (s : Search α τ) (k : Nat) : α := halved s.alphaMax k

def verdict (s : Search α τ) (k : Nat) (m : Measures α) : Option StepKind :=
  s.rule.accept s.filter s.current m (s.length k) s.slope

/-- The `k`-th step length is below the least one. -/
def TooShort (s : Search α τ) (k : Nat) : Prop :=
  s.length k < s.rule.alphaMin s.current.theta s.slope

/-- The first `k` trials from `t` succeed and are rejected, and they leave `u`. -/
inductive Rejects (s : Search α τ) (t : τ) : Nat → τ → Prop
  | nothing : Rejects s t 0 t
  | another {k : Nat} {u v : τ} {m : Measures α} (before : Rejects s t k u)
      (measured : (s.trial (s.length k)).outcome u = (.ok m, v)) (rejected : s.verdict k m = none) :
      Rejects s t (k + 1) (s.onReject ⟨s.length k, s.current, m⟩ v)

/-- How a search can end with its `k`-th trial, made in the state `u`. -/
inductive Ends (s : Search α τ) (k : Nat) (u : τ) :
    Except (Failure α) (Accepted α) → τ → Prop
  | accepted {v : τ} {m : Measures α} {kind : StepKind}
      (measured : (s.trial (s.length k)).outcome u = (.ok m, v))
      (passed : s.verdict k m = some kind) : Ends s k u (.ok ⟨s.length k, kind, k⟩) v
  | failed {v : τ} {f : Failure α} (failed : (s.trial (s.length k)).outcome u = (.error f, v)) :
      Ends s k u (.error f) v
  | exhausted {v : τ} {m : Measures α} (measured : (s.trial (s.length k)).outcome u = (.ok m, v))
      (rejected : s.verdict k m = none) (last : k = s.rule.maxBacktracks ∨ s.TooShort (k + 1)) :
      Ends s k u (.error (.lineSearch (s.length (k + 1))))
        (s.onReject ⟨s.length k, s.current, m⟩ v)

variable {s : Search α τ} {t t' u : τ} {k : Nat} {r : Except (Failure α) (Accepted α)}

theorem length_succ (s : Search α τ) (k : Nat) : s.length (k + 1) = s.length k * 0.5 :=
  halved_succ s.alphaMax k

/-- The search from its `k`-th trial on, with `left` more trials after that. -/
def resume (s : Search α τ) (left k : Nat) : Step (Failure α) τ (Accepted α) :=
  s.rule.backtrackFrom s.filter s.current s.slope s.trial s.onReject (left + 1) k (s.length k)

variable {left : Nat}

/-- A search goes on after a rejected trial that leaves it a longer step and a trial. -/
theorem resume_of_rejected {v : τ} {m : Measures α}
    (measured : (s.trial (s.length k)).outcome u = (.ok m, v)) (rejected : s.verdict k m = none)
    (long : ¬s.TooShort (k + 1)) :
    (s.resume (left + 1) k).outcome u =
      (s.resume left (k + 1)).outcome (s.onReject ⟨s.length k, s.current, m⟩ v) := by
  rw [TooShort, length_succ] at long
  rw [verdict] at rejected
  rw [resume, LineSearch.backtrackFrom, Step.outcome_bind, measured]
  simp only [rejected, Step.outcome_modify_bind, if_neg long]
  rw [← length_succ]
  rfl

/-- A search ends where it can, if the budget is counted with the trials. -/
theorem resume_of_ends (budget : left + k = s.rule.maxBacktracks) (ends : s.Ends k u r t') :
    (s.resume left k).outcome u = (r, t') := by
  rw [resume, LineSearch.backtrackFrom, Step.outcome_bind]
  cases ends with
  | accepted measured passed =>
    rw [verdict] at passed
    simp only [measured, passed]
    rfl
  | failed failed =>
    rw [failed]
  | exhausted measured rejected last =>
    rw [verdict] at rejected
    simp only [measured, rejected, Step.outcome_modify_bind, ← length_succ]
    split
    · rfl
    · rename_i long
      obtain rfl : left = 0 := by
        have := last.resolve_right long
        omega
      rfl

/-- All rejected trials behind it, a search is at its next one. -/
theorem run_of_rejects (rejects : s.Rejects t k u) (long : ∀ i, 1 ≤ i → i ≤ k → ¬s.TooShort i) :
    ∀ left, left + k = s.rule.maxBacktracks → s.run.outcome t = (s.resume left k).outcome u := by
  induction rejects with
  | nothing =>
    rintro left rfl
    rfl
  | another before measured rejected ih =>
    intro left budget
    rw [ih (fun i first below => long i first (by omega)) (left + 1) (by omega)]
    exact resume_of_rejected measured rejected (long _ (by omega) le_rfl)

/-- The first `k` trials are rejected within the budget, and the search ends with the next one. -/
def Course (s : Search α τ) (t : τ) (k : Nat) (u : τ) (r : Except (Failure α) (Accepted α))
    (t' : τ) : Prop :=
  k ≤ s.rule.maxBacktracks ∧ s.Rejects t k u ∧ (∀ i, 1 ≤ i → i ≤ k → ¬s.TooShort i) ∧
    s.Ends k u r t'

theorem Course.outcome (course : s.Course t k u r t') : s.run.outcome t = (r, t') := by
  obtain ⟨within, rejects, long, ends⟩ := course
  rw [run_of_rejects rejects long _ (Nat.sub_add_cancel within),
    resume_of_ends (Nat.sub_add_cancel within) ends]

/-- A search ends with a trial, or rejects it and has another one to make. -/
theorem ends_or_rejects (s : Search α τ) (k : Nat) (u : τ) :
    (∃ r t', s.Ends k u r t') ∨ k ≠ s.rule.maxBacktracks ∧ ¬s.TooShort (k + 1) ∧
      ∃ m v, (s.trial (s.length k)).outcome u = (.ok m, v) ∧ s.verdict k m = none := by
  rcases measured : (s.trial (s.length k)).outcome u with ⟨f | m, v⟩
  · exact .inl ⟨_, _, .failed measured⟩
  cases passed : s.verdict k m with
  | some kind => exact .inl ⟨_, _, .accepted measured passed⟩
  | none =>
    by_cases last : k = s.rule.maxBacktracks ∨ s.TooShort (k + 1)
    · exact .inl ⟨_, _, .exhausted measured passed last⟩
    · rw [not_or] at last
      exact .inr ⟨last.1, last.2, m, v, rfl, passed⟩

/-- Every search takes a course: the trials it has left become fewer. -/
theorem exists_course (s : Search α τ) (t : τ) : ∃ k u r t', s.Course t k u r t' := by
  suffices going : ∀ left k u, left + k = s.rule.maxBacktracks → s.Rejects t k u →
      (∀ i, 1 ≤ i → i ≤ k → ¬s.TooShort i) → ∃ k u r t', s.Course t k u r t' by
    refine going _ 0 t rfl .nothing fun i first none => ?_
    omega
  intro left
  induction left with
  | zero =>
    intro k u budget rejects long
    obtain ⟨r, t', ends⟩ | ⟨more, -⟩ := s.ends_or_rejects k u
    · exact ⟨k, u, r, t', by omega, rejects, long, ends⟩
    · omega
  | succ left ih =>
    intro k u budget rejects long
    obtain ⟨r, t', ends⟩ | ⟨-, longer, m, v, measured, rejected⟩ := s.ends_or_rejects k u
    · exact ⟨k, u, r, t', by omega, rejects, long, ends⟩
    · refine ih (k + 1) _ (by omega) (.another rejects measured rejected) fun i first below => ?_
      obtain rfl | earlier := Nat.eq_or_lt_of_le below
      · exact longer
      · exact long i first (by omega)

/-- What a search does is its course. -/
theorem outcome_run_iff : s.run.outcome t = (r, t') ↔ ∃ k u, s.Course t k u r t' := by
  constructor
  · intro ran
    obtain ⟨k, u, r', t'', course⟩ := s.exists_course t
    obtain ⟨rfl, rfl⟩ := Prod.mk.inj (course.outcome.symm.trans ran)
    exact ⟨k, u, course⟩
  · rintro ⟨k, u, course⟩
    exact course.outcome

theorem ends_ok_iff {acc : Accepted α} :
    s.Ends k u (.ok acc) t' ↔ acc.backtracks = k ∧ acc.alpha = s.length k ∧
      ∃ m, (s.trial (s.length k)).outcome u = (.ok m, t') ∧ s.verdict k m = some acc.kind := by
  constructor
  · rintro (⟨measured, passed⟩ | _ | _)
    exact ⟨rfl, rfl, _, measured, passed⟩
  · obtain ⟨alpha, kind, backtracks⟩ := acc
    rintro ⟨counted, at_length, m, measured, passed⟩
    dsimp only at counted at_length passed
    subst counted at_length
    exact .accepted measured passed

theorem run_ok_iff {acc : Accepted α} :
    s.run.outcome t = (.ok acc, t') ↔
      acc.backtracks ≤ s.rule.maxBacktracks ∧ acc.alpha = s.length acc.backtracks ∧
      (∀ i, 1 ≤ i → i ≤ acc.backtracks → ¬s.TooShort i) ∧
      ∃ u m, s.Rejects t acc.backtracks u ∧ (s.trial acc.alpha).outcome u = (.ok m, t') ∧
        s.rule.accept s.filter s.current m acc.alpha s.slope = some acc.kind := by
  rw [outcome_run_iff]
  constructor
  · rintro ⟨k, u, within, rejects, long, ends⟩
    obtain ⟨rfl, alpha, m, measured, passed⟩ := ends_ok_iff.mp ends
    rw [verdict, ← alpha] at passed
    rw [← alpha] at measured
    exact ⟨within, alpha, long, u, m, rejects, measured, passed⟩
  · rintro ⟨within, alpha, long, u, m, rejects, measured, passed⟩
    rw [alpha] at measured passed
    exact ⟨_, u, within, rejects, long, ends_ok_iff.mpr ⟨rfl, alpha, m, measured, passed⟩⟩

/-- The search whose trials are noted, each before it is made. -/
def noting (s : Search α τ) : Search α (τ × List α) where
  rule := s.rule
  filter := s.filter
  alphaMax := s.alphaMax
  current := s.current
  slope := s.slope
  trial alpha := .ofOutcome fun (u, calls) =>
    (((s.trial alpha).outcome u).1, (((s.trial alpha).outcome u).2, calls ++ [alpha]))
  onReject r := fun (u, calls) => (s.onReject r u, calls)

theorem noting_trial {calls : List α} {v : τ} {x : Except (Failure α) (Measures α)}
    (made : (s.trial (s.length k)).outcome u = (x, v)) :
    (s.noting.trial (s.noting.length k)).outcome (u, calls) = (x, (v, calls ++ [s.length k])) := by
  change (((s.trial (s.length k)).outcome u).1,
    (((s.trial (s.length k)).outcome u).2, calls ++ [s.length k])) = _
  rw [made]

theorem Rejects.noting (rejects : s.Rejects t k u) :
    s.noting.Rejects (t, []) k (u, (List.range k).map s.length) := by
  induction rejects with
  | nothing => exact .nothing
  | another before measured rejected ih =>
    rw [List.range_succ, List.map_append]
    exact .another ih (noting_trial measured) rejected

theorem Ends.noting {calls : List α} (ends : s.Ends k u r t') :
    s.noting.Ends k (u, calls) r (t', calls ++ [s.length k]) := by
  cases ends with
  | accepted measured passed => exact .accepted (noting_trial measured) passed
  | failed failed => exact .failed (noting_trial failed)
  | exhausted measured rejected last => exact .exhausted (noting_trial measured) rejected last

/-- The noted trials of a course. -/
theorem Course.noted (course : s.Course t k u r t') :
    s.noting.run.outcome (t, []) = (r, (t', (List.range (k + 1)).map s.length)) := by
  obtain ⟨within, rejects, long, ends⟩ := course
  rw [List.range_succ, List.map_append]
  exact Course.outcome ⟨within, rejects.noting, long, ends.noting⟩

/-- A search makes its trials at the first step length and its halves, in this order and within the
budget. It returns the first trial that passes the test, before which no length was too short, and
this trial is the last one it makes. A trial that fails ends the search at once with its failure,
and any other end is a failure with half of the last length. -/
theorem search_takes_first_passing (s : Search α τ) (t : τ) :
    let noted := s.noting.run.outcome (t, [])
    let calls := noted.2.2
    s.run.outcome t = (noted.1, noted.2.1) ∧
      (∃ k ≤ s.rule.maxBacktracks, calls = (List.range (k + 1)).map s.length) ∧
      (∀ acc t', s.run.outcome t = (.ok acc, t') ↔
        acc.backtracks ≤ s.rule.maxBacktracks ∧ acc.alpha = s.length acc.backtracks ∧
        (∀ i, 1 ≤ i → i ≤ acc.backtracks → ¬s.TooShort i) ∧
        ∃ u m, s.Rejects t acc.backtracks u ∧ (s.trial acc.alpha).outcome u = (.ok m, t') ∧
          s.rule.accept s.filter s.current m acc.alpha s.slope = some acc.kind) ∧
      (∀ acc t', s.run.outcome t = (.ok acc, t') →
        calls.length = acc.backtracks + 1 ∧ acc.kind ≠ .tiny) ∧
      (∀ m alpha kind, s.rule.accept s.filter s.current m alpha s.slope = some kind ↔
        s.rule.Passes s.filter s.current m alpha s.slope kind) ∧
      (∀ k u f t', k ≤ s.rule.maxBacktracks → s.Rejects t k u →
        (∀ i, 1 ≤ i → i ≤ k → ¬s.TooShort i) →
        (s.trial (s.length k)).outcome u = (.error f, t') →
        s.run.outcome t = (.error f, t') ∧ calls.length = k + 1) ∧
      (∀ f t', s.run.outcome t = (.error f, t') → ∃ k u, calls.length = k + 1 ∧ s.Rejects t k u ∧
        ((s.trial (s.length k)).outcome u = (.error f, t') ∨
          f = .lineSearch (s.length k * 0.5) ∧ s.Rejects t (k + 1) t' ∧
            (k = s.rule.maxBacktracks ∨ s.TooShort (k + 1)))) ∧
      ∀ (alpha : ℝ) (k : Nat), halved alpha k = alpha / 2 ^ k := by
  obtain ⟨k, u, r, t', course⟩ := s.exists_course t
  have within := course.1
  have ran := course.outcome
  have noted := course.noted
  dsimp only
  rw [noted]
  have counted : ((List.range (k + 1)).map s.length).length = k + 1 := by simp
  refine ⟨ran, ⟨k, within, rfl⟩, fun _ _ => run_ok_iff, ?_,
    fun _ _ _ => LineSearch.accept_eq_some_iff, ?_, ?_, halved_real⟩
  · intro acc t'' found
    obtain ⟨rfl, rfl⟩ := Prod.mk.inj (ran.symm.trans found)
    obtain ⟨rfl, -, m, -, passed⟩ := ends_ok_iff.mp course.2.2.2
    exact ⟨counted, LineSearch.not_tiny_of_passes (LineSearch.accept_eq_some_iff.mp passed)⟩
  · intro k₂ u₂ f t₂ within₂ rejects long failed
    have course₂ : s.Course t k₂ u₂ (.error f) t₂ := ⟨within₂, rejects, long, .failed failed⟩
    refine ⟨course₂.outcome, ?_⟩
    have same := congrArg (fun out => out.2.2.length) (noted.symm.trans course₂.noted)
    simpa using same
  · intro f t'' stopped
    obtain ⟨rfl, rfl⟩ := Prod.mk.inj (ran.symm.trans stopped)
    obtain ⟨-, rejects, -, ends⟩ := course
    refine ⟨k, u, counted, rejects, ?_⟩
    cases ends with
    | failed failed => exact .inl failed
    | exhausted measured rejected last =>
      rw [length_succ]
      exact .inr ⟨rfl, .another rejects measured rejected, last⟩

end Search

end SmoothOpt
