import SmoothOpt.Termination

/-!
What a termination check tells and what it changes.
-/
namespace SmoothOpt.Termination

variable {α : Type} [Scalar α] {t : Termination α} {errors : List α} {iter : Nat}

/-- A check changes the count of acceptable checks at most. -/
theorem check_state (t : Termination α) (errors : List α) (iter : Nat) :
    ∃ count, (t.check errors iter).2 = { t with acceptableCount := count } := by
  unfold check
  split
  · exact ⟨_, rfl⟩
  · dsimp only
    split
    · exact ⟨_, rfl⟩
    · exact ⟨_, rfl⟩

/-- What a check that decides can tell, and why. -/
theorem check_cases {status : Status} (h : (t.check errors iter).1 = some status) :
    (status = .success ∧ allWithin errors t.tolerance = true) ∨
      (status = .maxIterExceeded ∧ t.maxIter ≤ iter) ∨
      status = .successRelTol ∨ status = .acceptableLevel := by
  unfold check at h
  split at h
  · rename_i verdict decided
    cases h
    unfold decisive at decided
    split at decided
    · rename_i within
      cases decided
      exact .inl ⟨rfl, within⟩
    · split at decided
      · rename_i spent
        cases decided
        exact .inr (.inl ⟨rfl, spent⟩)
      · split at decided
        · cases decided
          exact .inr (.inr (.inl rfl))
        · cases decided
  · dsimp only at h
    split at h
    · cases h
      exact .inr (.inr (.inr rfl))
    · cases h

/-- Success is declared when and only when every error is at most the tolerance. -/
theorem check_success_iff :
    (t.check errors iter).1 = some .success ↔ ∀ e ∈ errors, e ≤ t.tolerance := by
  have within_iff : allWithin errors t.tolerance = true ↔ ∀ e ∈ errors, e ≤ t.tolerance := by
    simp [allWithin]
  rw [← within_iff]
  constructor
  · intro h
    obtain ⟨-, within⟩ | ⟨⟨⟩, -⟩ | ⟨⟨⟩⟩ | ⟨⟨⟩⟩ := check_cases h
    exact within
  · intro within
    have decided : t.decisive errors iter = some .success := by
      simp [decisive, within]
    simp only [check, decided]

/-- A check never tells a failure. -/
theorem check_not_failure {status : Status} (h : (t.check errors iter).1 = some status) :
    status.isFailure = false := by
  obtain ⟨rfl, -⟩ | ⟨rfl, -⟩ | rfl | rfl := check_cases h <;> rfl

/-- A check that meets none of the stopping tests goes on. -/
theorem check_none (above : allWithin errors t.tolerance = false) (early : iter < t.maxIter)
    (relative : t.relativelySmall errors = false)
    (unacceptable : allWithin errors t.acceptableTolerance = false) :
    (t.check errors iter).1 = none := by
  have undecided : t.decisive errors iter = none := by
    simp [decisive, above, relative, Nat.not_le.mpr early]
  have restarted : t.nextCount errors = 0 := by
    simp [nextCount, unacceptable]
  simp only [check, undecided, restarted]
  split
  · rename_i reached
    omega
  · rfl

/-- A check that goes on finds the budget unspent. -/
theorem lt_maxIter_of_check (undecided : (t.check errors iter).1 = none) : iter < t.maxIter := by
  rcases Nat.lt_or_ge iter t.maxIter with early | spent
  · exact early
  · obtain ⟨status, decided⟩ : ∃ status, t.decisive errors iter = some status := by
      unfold decisive
      split
      · exact ⟨_, rfl⟩
      · exact ⟨_, rfl⟩
    simp only [check, decided] at undecided
    cases undecided

end SmoothOpt.Termination
