import SmoothOpt.Step

/-!
Outcomes of composed steps.

A step that is a sequence is taken apart by its outcome: a success comes from a success of both
parts, a failure from the first part or from the second after the first has succeeded. The state of
a failure is part of the outcome, so both rules speak of it.

`Ensures` goes the other way: what holds of a state before a step and what holds after it, with one
condition for a success and one for a failure. It is composed along the step. `Leaves` is the same
with a condition that depends on the failure.
-/
namespace SmoothOpt

theorem run_bind {σ β γ : Type} (x : StateM σ β) (f : β → StateM σ γ) (w : σ) :
    (x >>= f).run w = (f (x.run w).1).run (x.run w).2 := rfl

namespace Step

variable {ε ε' τ τ' β γ : Type}

@[simp] theorem outcome_pure (b : β) (t : τ) : (pure b : Step ε τ β).outcome t = (.ok b, t) := rfl

@[simp] theorem outcome_throw (e : ε) (t : τ) :
    (throw e : Step ε τ β).outcome t = (.error e, t) := rfl

@[simp] theorem outcome_set (t t' : τ) :
    (set t' : Step ε τ PUnit).outcome t = (.ok ⟨⟩, t') := rfl

@[simp] theorem outcome_modify (f : τ → τ) (t : τ) :
    (modify f : Step ε τ PUnit).outcome t = (.ok ⟨⟩, f t) := rfl

@[simp] theorem outcome_ofOutcome (f : τ → Except ε β × τ) (t : τ) :
    (ofOutcome f).outcome t = f t := rfl

theorem outcome_within (part : τ → τ') (put : τ' → τ → τ) (rename : ε' → ε)
    (s : Step ε' τ' β) (t : τ) :
    (s.within part put rename).outcome t =
      ((s.outcome (part t)).1.mapError rename, put (s.outcome (part t)).2 t) := rfl

@[simp] theorem outcome_get (t : τ) : (get : Step ε τ τ).outcome t = (.ok t, t) := rfl

theorem outcome_bind (x : Step ε τ β) (f : β → Step ε τ γ) (t : τ) :
    (x >>= f).outcome t = match x.outcome t with
      | (.ok b, t') => (f b).outcome t'
      | (.error e, t') => (.error e, t') := by
  have unfolded : (x >>= f).outcome t =
      (ExceptT.bindCont f (x.outcome t).1).run (x.outcome t).2 := rfl
  rw [unfolded]
  rcases x.outcome t with ⟨_ | b, t'⟩ <;> rfl

@[simp] theorem outcome_get_bind (f : τ → Step ε τ γ) (t : τ) :
    (get >>= f).outcome t = (f t).outcome t := by
  rw [outcome_bind, outcome_get]

@[simp] theorem outcome_set_bind (t' : τ) (f : PUnit → Step ε τ γ) (t : τ) :
    (set t' >>= f).outcome t = (f ⟨⟩).outcome t' := by
  rw [outcome_bind, outcome_set]

@[simp] theorem outcome_modify_bind (g : τ → τ) (f : PUnit → Step ε τ γ) (t : τ) :
    (modify g >>= f).outcome t = (f ⟨⟩).outcome (g t) := by
  rw [outcome_bind, outcome_modify]

/-- A sequence succeeds when both parts do, the second from the state the first leaves. -/
theorem outcome_bind_ok {x : Step ε τ β} {f : β → Step ε τ γ} {t t'' : τ} {c : γ} :
    (x >>= f).outcome t = (.ok c, t'') ↔
      ∃ b t', x.outcome t = (.ok b, t') ∧ (f b).outcome t' = (.ok c, t'') := by
  rw [outcome_bind]
  rcases x.outcome t with ⟨_ | b, t'⟩
  · simp
  · constructor
    · intro h
      exact ⟨b, t', rfl, h⟩
    · rintro ⟨_, _, first, second⟩
      cases first
      exact second

/-- A sequence fails in its first part, or in its second after the first has succeeded. -/
theorem outcome_bind_error {x : Step ε τ β} {f : β → Step ε τ γ} {t t'' : τ} {e : ε} :
    (x >>= f).outcome t = (.error e, t'') ↔
      x.outcome t = (.error e, t'') ∨
        ∃ b t', x.outcome t = (.ok b, t') ∧ (f b).outcome t' = (.error e, t'') := by
  rw [outcome_bind]
  rcases x.outcome t with ⟨_ | b, t'⟩
  · simp
  · constructor
    · intro h
      exact .inr ⟨b, t', rfl, h⟩
    · rintro (first | ⟨_, _, first, second⟩)
      · cases first
      · cases first
        exact second

theorem mapError_ok {x : Except ε' β} {f : ε' → ε} {b : β} :
    x.mapError f = .ok b ↔ x = .ok b := by
  cases x with
  | error e => exact ⟨nofun, nofun⟩
  | ok v =>
    constructor
    · intro given
      exact congrArg Except.ok (Except.ok.inj given)
    · rintro ⟨⟩
      rfl

theorem mapError_error {x : Except ε' β} {f : ε' → ε} {e : ε} :
    x.mapError f = .error e ↔ ∃ e', x = .error e' ∧ e = f e' := by
  cases x with
  | ok b => exact ⟨nofun, nofun⟩
  | error cause =>
    constructor
    · intro named
      exact ⟨cause, rfl, (Except.error.inj named).symm⟩
    · rintro ⟨_, ⟨⟩, rfl⟩
      rfl

theorem outcome_within_ok {part : τ → τ'} {put : τ' → τ → τ} {rename : ε' → ε}
    {s : Step ε' τ' β} {t t' : τ} {b : β} :
    (s.within part put rename).outcome t = (.ok b, t') ↔
      ∃ u, s.outcome (part t) = (.ok b, u) ∧ t' = put u t := by
  rw [outcome_within, Prod.mk.injEq, mapError_ok]
  rcases s.outcome (part t) with ⟨r, u⟩
  constructor
  · rintro ⟨rfl, rfl⟩
    exact ⟨u, rfl, rfl⟩
  · rintro ⟨u', same, rfl⟩
    cases same
    exact ⟨rfl, rfl⟩

theorem outcome_within_error {part : τ → τ'} {put : τ' → τ → τ} {rename : ε' → ε}
    {s : Step ε' τ' β} {t t' : τ} {e : ε} :
    (s.within part put rename).outcome t = (.error e, t') ↔
      ∃ e' u, s.outcome (part t) = (.error e', u) ∧ e = rename e' ∧ t' = put u t := by
  rw [outcome_within, Prod.mk.injEq, mapError_error]
  rcases s.outcome (part t) with ⟨r, u⟩
  constructor
  · rintro ⟨⟨e', rfl, renamed⟩, rfl⟩
    exact ⟨e', u, rfl, renamed, rfl⟩
  · rintro ⟨e', u', same, renamed, rfl⟩
    cases same
    exact ⟨⟨e', rfl, renamed⟩, rfl⟩

/-- From every state with `P` the step leaves `Q` with its value, or `E` with a failure. -/
def Ensures (P : τ → Prop) (s : Step ε τ β) (Q : β → τ → Prop) (E : τ → Prop) : Prop :=
  ∀ t, P t → match s.outcome t with
    | (.ok b, t') => Q b t'
    | (.error _, t') => E t'

namespace Ensures

variable {P : τ → Prop} {s : Step ε τ β} {Q : β → τ → Prop} {E : τ → Prop}

theorem ok (h : Ensures P s Q E) {t t' : τ} {b : β} (holds : P t)
    (ran : s.outcome t = (.ok b, t')) : Q b t' := by
  have left := h t holds
  rw [ran] at left
  exact left

theorem error (h : Ensures P s Q E) {t t' : τ} {e : ε} (holds : P t)
    (ran : s.outcome t = (.error e, t')) : E t' := by
  have left := h t holds
  rw [ran] at left
  exact left

theorem pure {b : β} (holds : ∀ t, P t → Q b t) : Ensures P (pure b : Step ε τ β) Q E := holds

theorem throw {e : ε} (holds : ∀ t, P t → E t) : Ensures P (throw e : Step ε τ β) Q E := holds

theorem modify {f : τ → τ} {Q : PUnit → τ → Prop} (holds : ∀ t, P t → Q ⟨⟩ (f t)) :
    Ensures P (modify f : Step ε τ PUnit) Q E := holds

theorem set {t' : τ} {Q : PUnit → τ → Prop} (holds : ∀ t, P t → Q ⟨⟩ t') :
    Ensures P (set t' : Step ε τ PUnit) Q E := holds

theorem bind {R : γ → τ → Prop} {f : β → Step ε τ γ} (first : Ensures P s Q E)
    (second : ∀ b, Ensures (Q b) (f b) R E) : Ensures P (s >>= f) R E := by
  intro t holds
  rw [outcome_bind]
  rcases ran : s.outcome t with ⟨_ | b, t'⟩
  · exact first.error holds ran
  · exact second b t' (first.ok holds ran)

/-- What is read is the state itself. -/
theorem get_bind {f : τ → Step ε τ β} (next : ∀ t, P t → Ensures (· = t) (f t) Q E) :
    Ensures P (get >>= f) Q E := by
  intro t holds
  rw [outcome_get_bind]
  exact next t holds t rfl

theorem weaken {P' : τ → Prop} {Q' : β → τ → Prop} {E' : τ → Prop} (h : Ensures P s Q E)
    (before : ∀ t, P' t → P t) (after : ∀ b t, Q b t → Q' b t) (failed : ∀ t, E t → E' t) :
    Ensures P' s Q' E' := by
  intro t holds
  rcases ran : s.outcome t with ⟨_ | b, t'⟩
  · exact failed _ (h.error (before t holds) ran)
  · exact after _ _ (h.ok (before t holds) ran)

/-- A step on a part of the state, for each state it can be a part of. -/
theorem within {part : τ → τ'} {put : τ' → τ → τ} {rename : ε' → ε} {s : Step ε' τ' β}
    (inner : ∀ t, P t → Ensures (· = part t) s (fun b u => Q b (put u t)) fun u => E (put u t)) :
    Ensures P (s.within part put rename) Q E := by
  intro t holds
  rw [outcome_within]
  rcases ran : s.outcome (part t) with ⟨_ | b, u⟩
  · exact (inner t holds).error rfl ran
  · exact (inner t holds).ok rfl ran

end Ensures

/-- The step keeps `P`, whether it succeeds or fails. -/
def Keeps (P : τ → Prop) (s : Step ε τ β) : Prop := Ensures P s (fun _ => P) P

namespace Keeps

variable {P : τ → Prop} {s : Step ε τ β}

theorem outcome (h : Keeps P s) {t t' : τ} {r : Except ε β} (holds : P t)
    (ran : s.outcome t = (r, t')) : P t' := by
  cases r with
  | ok b => exact Ensures.ok h holds ran
  | error e => exact Ensures.error h holds ran

theorem of_state (h : ∀ t, P t → P (s.outcome t).2) : Keeps P s := by
  intro t holds
  have left := h t holds
  rcases ran : s.outcome t with ⟨_ | b, t'⟩
  · rw [ran] at left
    exact left
  · rw [ran] at left
    exact left

theorem bind {f : β → Step ε τ γ} (first : Keeps P s) (second : ∀ b, Keeps P (f b)) :
    Keeps P (s >>= f) := Ensures.bind first second

theorem modify {f : τ → τ} (holds : ∀ t, P t → P (f t)) :
    Keeps P (modify f : Step ε τ PUnit) := Ensures.modify holds

/-- A step on a part of the state keeps what its change of the part keeps. -/
theorem within {part : τ → τ'} {put : τ' → τ → τ} {rename : ε' → ε} {s : Step ε' τ' β}
    {Q : τ' → Prop} (inner : Keeps Q s) (taken : ∀ t, P t → Q (part t))
    (back : ∀ t u, P t → Q u → P (put u t)) : Keeps P (s.within part put rename) := by
  refine Ensures.within fun t holds => ?_
  refine Ensures.weaken inner ?_ (fun _ u => back t u holds) fun u => back t u holds
  rintro _ rfl
  exact taken t holds

end Keeps

/-- From every state with `P` the step leaves `Q` with its value, or `E` with its failure. -/
def Leaves (P : τ → Prop) (s : Step ε τ β) (Q : β → τ → Prop) (E : ε → τ → Prop) : Prop :=
  ∀ t, P t → match s.outcome t with
    | (.ok b, t') => Q b t'
    | (.error e, t') => E e t'

namespace Leaves

variable {P : τ → Prop} {s : Step ε τ β} {Q : β → τ → Prop} {E : ε → τ → Prop}

theorem of_outcomes (ok : ∀ t b t', P t → s.outcome t = (.ok b, t') → Q b t')
    (error : ∀ t e t', P t → s.outcome t = (.error e, t') → E e t') : Leaves P s Q E := by
  intro t holds
  rcases ran : s.outcome t with ⟨e | b, t'⟩
  · exact error t e t' holds ran
  · exact ok t b t' holds ran

theorem ok (h : Leaves P s Q E) {t t' : τ} {b : β} (holds : P t)
    (ran : s.outcome t = (.ok b, t')) : Q b t' := by
  have left := h t holds
  rw [ran] at left
  exact left

theorem error (h : Leaves P s Q E) {t t' : τ} {e : ε} (holds : P t)
    (ran : s.outcome t = (.error e, t')) : E e t' := by
  have left := h t holds
  rw [ran] at left
  exact left

theorem pure {b : β} (holds : ∀ t, P t → Q b t) : Leaves P (pure b : Step ε τ β) Q E := holds

theorem throw {e : ε} (holds : ∀ t, P t → E e t) : Leaves P (throw e : Step ε τ β) Q E := holds

theorem modify {f : τ → τ} {Q : PUnit → τ → Prop} (holds : ∀ t, P t → Q ⟨⟩ (f t)) :
    Leaves P (modify f : Step ε τ PUnit) Q E := holds

theorem bind {R : γ → τ → Prop} {f : β → Step ε τ γ} (first : Leaves P s Q E)
    (second : ∀ b, Leaves (Q b) (f b) R E) : Leaves P (s >>= f) R E := by
  intro t holds
  rw [outcome_bind]
  rcases ran : s.outcome t with ⟨_ | b, t'⟩
  · exact first.error holds ran
  · exact second b t' (first.ok holds ran)

theorem get_bind {f : τ → Step ε τ β} (next : ∀ t, P t → Leaves (· = t) (f t) Q E) :
    Leaves P (get >>= f) Q E := by
  intro t holds
  rw [outcome_get_bind]
  exact next t holds t rfl

theorem weaken {P' : τ → Prop} {Q' : β → τ → Prop} (h : Leaves P s Q E)
    (before : ∀ t, P' t → P t) (after : ∀ b t, Q b t → Q' b t) : Leaves P' s Q' E := by
  refine of_outcomes (fun t b t' holds ran => ?_) fun t e t' holds ran => ?_
  · exact after b t' (h.ok (before t holds) ran)
  · exact h.error (before t holds) ran

/-- A step on a part of the state, with its failures named anew. -/
theorem within {part : τ → τ'} {put : τ' → τ → τ} {rename : ε' → ε} {s : Step ε' τ' β}
    (inner : ∀ t, P t → Leaves (· = part t) s (fun b u => Q b (put u t))
      fun e u => E (rename e) (put u t)) : Leaves P (s.within part put rename) Q E := by
  intro t holds
  rw [outcome_within]
  rcases ran : s.outcome (part t) with ⟨_ | b, u⟩
  · exact (inner t holds).error rfl ran
  · exact (inner t holds).ok rfl ran

end Leaves

end Step

end SmoothOpt
