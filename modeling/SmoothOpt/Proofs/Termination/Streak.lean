import Mathlib.Data.List.DropRight
import Mathlib.Data.List.Forall2
import SmoothOpt.Proofs.Termination

/-!
Termination checks in sequence.

A check that meets one of the first three tests is decided by it and leaves the count alone; the
others are open. After any sequence of checks the count is the length of the run of acceptable ones
at the end of the open checks (`after_eq`), and it is this run that an open check weighs
(`check_after`). Where a sequence goes on until a check tells that the level is acceptable, its last
checks are the first run of the required length (`Ongoing.firstStreak`).
-/
namespace SmoothOpt.Termination

variable {α : Type}

/-- What a check is asked. -/
structure Query (α : Type) where
  errors : List α
  iter : Nat

variable [Scalar α] {t : Termination α} {q : Query α} {qs : List (Query α)}

inductive Decides (t : Termination α) (q : Query α) : Status → Prop
  | small (within : ∀ e ∈ q.errors, e ≤ t.tolerance) : Decides t q .success
  | spent (above : ¬∀ e ∈ q.errors, e ≤ t.tolerance) (late : t.maxIter ≤ q.iter) :
      Decides t q .maxIterExceeded
  | reduced (above : ¬∀ e ∈ q.errors, e ≤ t.tolerance) (early : q.iter < t.maxIter)
      (on : 0 < t.relTolerance)
      (relative : List.Forall₂ (fun e e₀ => e ≤ t.relTolerance * e₀) q.errors t.initialErrors) :
      Decides t q .successRelTol

def Open (t : Termination α) (q : Query α) : Prop := ∀ status, ¬t.Decides q status

def acceptable (t : Termination α) (q : Query α) : Bool :=
  allWithin q.errors t.acceptableTolerance

def after (t : Termination α) (qs : List (Query α)) : Termination α :=
  qs.foldl (fun t q => (t.check q.errors q.iter).2) t

theorem allWithin_iff {errors : List α} {bound : α} :
    allWithin errors bound = true ↔ ∀ e ∈ errors, e ≤ bound := by
  simp [allWithin]

theorem relativelySmall_iff {errors : List α} :
    t.relativelySmall errors = true ↔ 0 < t.relTolerance ∧
      List.Forall₂ (fun e e₀ => e ≤ t.relTolerance * e₀) errors t.initialErrors := by
  rw [List.forall₂_iff_zip, relativelySmall, eq_comm (a := errors.length)]
  simp [and_assoc]

theorem decisive_eq_some_iff {status : Status} :
    t.decisive q.errors q.iter = some status ↔ t.Decides q status := by
  simp only [decisive, allWithin_iff, relativelySmall_iff]
  constructor
  · intro decided
    split at decided
    · rename_i within
      cases decided
      exact .small within
    · rename_i above
      split at decided
      · rename_i late
        cases decided
        exact .spent above late
      · rename_i early
        split at decided
        · rename_i reduced
          cases decided
          exact .reduced above (Nat.not_le.mp early) reduced.1 reduced.2
        · cases decided
  · rintro (within | ⟨above, late⟩ | ⟨above, early, on, relative⟩)
    · rw [if_pos within]
    · rw [if_neg above, if_pos late]
    · rw [if_neg above, if_neg (Nat.not_le.mpr early), if_pos ⟨on, relative⟩]

theorem decisive_eq_none_iff : t.decisive q.errors q.iter = none ↔ t.Open q := by
  simp only [Open, ← decisive_eq_some_iff, Option.eq_none_iff_forall_ne_some, ne_eq]

instance (t : Termination α) : DecidablePred t.Open := fun _ =>
  decidable_of_iff _ decisive_eq_none_iff

/-- A decided check tells its test and changes nothing. -/
theorem check_of_decides {status : Status} (decided : t.Decides q status) :
    t.check q.errors q.iter = (some status, t) := by
  rw [check, decisive_eq_some_iff.mpr decided]

/-- An open check counts, and weighs the count. -/
theorem check_of_open (undecided : t.Open q) :
    t.check q.errors q.iter =
      (if 0 < t.acceptableIterations ∧ t.acceptableIterations ≤ t.nextCount q.errors then
        some .acceptableLevel else none, { t with acceptableCount := t.nextCount q.errors }) := by
  rw [check, decisive_eq_none_iff.mpr undecided]
  dsimp only
  split <;> rfl

/-- The tests do not look at the count. -/
theorem decides_count_iff {n : Nat} {status : Status} :
    Decides { t with acceptableCount := n } q status ↔ t.Decides q status := by
  rw [← decisive_eq_some_iff, ← decisive_eq_some_iff]
  rfl

theorem open_count_iff {n : Nat} : Open { t with acceptableCount := n } q ↔ t.Open q :=
  forall_congr' fun _ => not_congr decides_count_iff

theorem Open.of_check (undecided : (t.check q.errors q.iter).1 = none) : t.Open q := by
  intro status decided
  rw [check_of_decides decided] at undecided
  cases undecided

theorem Open.of_check_acceptable
    (told : (t.check q.errors q.iter).1 = some .acceptableLevel) : t.Open q := by
  intro status decided
  rw [check_of_decides decided] at told
  cases told
  cases decided

/-- The run of acceptable checks at the end of the open ones. -/
def streak (t : Termination α) (qs : List (Query α)) : List (Query α) :=
  (qs.filter (t.Open ·)).rtakeWhile t.acceptable

theorem streak_concat_of_open (undecided : t.Open q) :
    (t.streak (qs ++ [q])).length =
      if t.acceptable q then (t.streak qs).length + 1 else 0 := by
  have kept : (qs ++ [q]).filter (t.Open ·) = qs.filter (t.Open ·) ++ [q] := by
    simp [List.filter_append, undecided]
  rw [streak, kept, List.rtakeWhile_concat]
  split
  · exact List.length_append
  · rfl

theorem streak_concat_of_not_open (decided : ¬t.Open q) : t.streak (qs ++ [q]) = t.streak qs := by
  simp [streak, List.filter_append, decided]

theorem after_concat (t : Termination α) (qs : List (Query α)) (q : Query α) :
    t.after (qs ++ [q]) = ((t.after qs).check q.errors q.iter).2 := by
  simp [after]

/-- After any sequence of checks the count is the length of the streak, and nothing else has
changed. -/
theorem after_eq (fresh : t.acceptableCount = 0) (qs : List (Query α)) :
    t.after qs = { t with acceptableCount := (t.streak qs).length } := by
  induction qs using List.reverseRecOn with
  | nil =>
    change t = { t with acceptableCount := 0 }
    rw [← fresh]
  | append_singleton qs q ih =>
    rw [after_concat, ih]
    by_cases undecided : t.Open q
    · rw [check_of_open (open_count_iff.mpr undecided), streak_concat_of_open undecided]
      rfl
    · rw [streak_concat_of_not_open undecided]
      obtain ⟨status, decided⟩ := not_forall_not.mp undecided
      rw [check_of_decides (decides_count_iff.mpr decided)]

/-- An open check after a sequence of checks weighs the streak that it ends. -/
theorem check_after (fresh : t.acceptableCount = 0) (undecided : t.Open q) :
    ((t.after qs).check q.errors q.iter).1 =
      if 0 < t.acceptableIterations ∧ t.acceptableIterations ≤ (t.streak (qs ++ [q])).length then
        some .acceptableLevel else none := by
  rw [after_eq fresh, check_of_open (open_count_iff.mpr undecided),
    streak_concat_of_open undecided]
  rfl

/-- No check of a sequence tells anything. -/
def Ongoing (t : Termination α) : List (Query α) → Prop
  | [] => True
  | q :: qs => (t.check q.errors q.iter).1 = none ∧ Ongoing (t.check q.errors q.iter).2 qs

theorem ongoing_append {qs rest : List (Query α)} :
    t.Ongoing (qs ++ rest) ↔ t.Ongoing qs ∧ (t.after qs).Ongoing rest := by
  induction qs generalizing t with
  | nil => exact (true_and _).symm.to_iff
  | cons q qs ih =>
    refine (and_congr_right fun _ => ih).trans ?_
    exact and_assoc.symm

theorem Ongoing.open (going : t.Ongoing qs) (fresh : t.acceptableCount = 0) :
    ∀ q ∈ qs, t.Open q := by
  intro q member
  obtain ⟨front, back, rfl⟩ := List.mem_iff_append.mp member
  have undecided := (ongoing_append.mp going).2.1
  rw [after_eq fresh] at undecided
  exact open_count_iff.mp (.of_check undecided)

theorem streak_of_open (undecided : ∀ q ∈ qs, t.Open q) :
    t.streak qs = qs.rtakeWhile t.acceptable := by
  rw [streak, List.filter_eq_self.mpr fun q member => decide_eq_true (undecided q member)]

/-- The checks end with as many acceptable ones in a row as are required, and never before has there
been such a run. -/
structure FirstStreak (t : Termination α) (checks : List (Query α)) : Prop where
  required : 0 < t.acceptableIterations
  reached : (checks.rtakeWhile t.acceptable).length = t.acceptableIterations
  before : ∀ earlier, earlier <+: checks → earlier ≠ checks →
    (earlier.rtakeWhile t.acceptable).length < t.acceptableIterations

/-- The reference of the relative test does not matter to a streak. -/
theorem FirstStreak.of_reference {initial : List α} {checks : List (Query α)}
    (streak : (t.recordInitial initial).FirstStreak checks) : t.FirstStreak checks :=
  { streak with }

/-- A check that is not acceptable, made before the others, leaves the first streak what it is. -/
theorem FirstStreak.cons {checks : List (Query α)} (streak : t.FirstStreak checks)
    (large : t.acceptable q = false) : t.FirstStreak (q :: checks) := by
  have cut (rest : List (Query α)) :
      (q :: rest).rtakeWhile t.acceptable = rest.rtakeWhile t.acceptable := by
    rw [List.rtakeWhile, List.rtakeWhile, List.reverse_cons, List.takeWhile_append]
    split
    · rename_i whole
      rw [List.takeWhile_cons_of_neg (by simp [large]), List.append_nil,
        (List.takeWhile_prefix _).eq_of_length whole]
    · rfl
  refine ⟨streak.required, (cut checks).symm ▸ streak.reached, fun earlier initial proper => ?_⟩
  rcases List.prefix_cons_iff.mp initial with rfl | ⟨rest, rfl, shorter⟩
  · exact streak.required
  · rw [cut]
    exact streak.before rest shorter fun whole => proper (whole ▸ rfl)

/-- A single check is a streak where one is required. -/
theorem FirstStreak.of_single (streak : t.FirstStreak [q]) :
    t.acceptableIterations = 1 ∧ t.acceptable q = true := by
  have reached := streak.reached
  have required := streak.required
  rw [← List.nil_append [q], List.rtakeWhile_concat] at reached
  split at reached
  · rename_i small
    exact ⟨reached.symm, small⟩
  · rw [List.length_nil] at reached
    omega

/-- Checks that go on have not reached the required number. -/
theorem Ongoing.streak_lt (going : t.Ongoing qs) (fresh : t.acceptableCount = 0)
    (required : 0 < t.acceptableIterations) :
    (qs.rtakeWhile t.acceptable).length < t.acceptableIterations := by
  rcases List.eq_nil_or_concat qs with rfl | ⟨front, q, rfl⟩
  · exact required
  · rw [List.concat_eq_append] at going ⊢
    have undecided := (ongoing_append.mp going).2.1
    rw [check_after fresh (going.open fresh q (by simp)), streak_of_open (going.open fresh)]
      at undecided
    split at undecided
    · cases undecided
    · rename_i short
      omega

/-- The first check of a sequence that finds the level acceptable ends the first streak. -/
theorem Ongoing.firstStreak (going : t.Ongoing qs) (fresh : t.acceptableCount = 0)
    (told : ((t.after qs).check q.errors q.iter).1 = some .acceptableLevel) :
    t.FirstStreak (qs ++ [q]) := by
  have undecided : t.Open q := by
    have last := Open.of_check_acceptable told
    rw [after_eq fresh] at last
    exact open_count_iff.mp last
  have open_all : ∀ r ∈ qs ++ [q], t.Open r := by
    intro r member
    rcases List.mem_append.mp member with front | last
    · exact going.open fresh r front
    · rwa [List.mem_singleton.mp last]
  rw [check_after fresh undecided] at told
  split at told
  · rename_i weighed
    obtain ⟨required, enough⟩ := weighed
    rw [streak_concat_of_open undecided, streak_of_open (going.open fresh)] at enough
    have short := going.streak_lt fresh required
    refine ⟨required, ?_, fun earlier initial proper => ?_⟩
    · rw [← streak_of_open open_all, streak_concat_of_open undecided,
        streak_of_open (going.open fresh)]
      split
      · rename_i small
        rw [if_pos small] at enough
        omega
      · rename_i large
        rw [if_neg large] at enough
        omega
    · rcases List.prefix_concat_iff.mp initial with whole | ⟨rest, rfl⟩
      · exact absurd whole proper
      · exact (ongoing_append.mp going).1.streak_lt fresh required
  · cases told

end SmoothOpt.Termination
