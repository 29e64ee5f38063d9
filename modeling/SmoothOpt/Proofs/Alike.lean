import SmoothOpt.Proofs.Step

/-!
Two steps that go alike.

A statement about two runs, such as one that compares a run with its repetition, is a statement
about pairs of outcomes: both succeed, or both fail, and what they leave is related. `Alike` states
it for two steps from every pair of related states, and is composed along them as `Ensures` is along
one.
-/
namespace SmoothOpt.Step

variable {ε ε' τ τ' β β' γ γ' : Type}

/-- Two outcomes of one kind: both succeed and `Q` holds, or both fail and `E` holds. -/
inductive Matched (Q : β → β' → τ → τ' → Prop) (E : ε → ε' → τ → τ' → Prop) :
    Except ε β × τ → Except ε' β' × τ' → Prop
  | ok {b : β} {b' : β'} {t : τ} {t' : τ'} (holds : Q b b' t t') :
      Matched Q E (.ok b, t) (.ok b', t')
  | error {e : ε} {e' : ε'} {t : τ} {t' : τ'} (holds : E e e' t t') :
      Matched Q E (.error e, t) (.error e', t')

/-- From every two states related by `R` the two steps go alike. -/
def Alike (R : τ → τ' → Prop) (x : Step ε τ β) (y : Step ε' τ' β') (Q : β → β' → τ → τ' → Prop)
    (E : ε → ε' → τ → τ' → Prop) : Prop :=
  ∀ t t', R t t' → Matched Q E (x.outcome t) (y.outcome t')

variable {R : τ → τ' → Prop} {x : Step ε τ β} {y : Step ε' τ' β'} {Q : β → β' → τ → τ' → Prop}
  {E : ε → ε' → τ → τ' → Prop}

namespace Matched

variable {r : Except ε β × τ} {r' : Except ε' β' × τ'}

theorem of_ok (h : Matched Q E r r') {b : β} {t : τ} (ran : r = (.ok b, t)) :
    ∃ b' t', r' = (.ok b', t') ∧ Q b b' t t' := by
  cases h with
  | ok holds =>
    cases ran
    exact ⟨_, _, rfl, holds⟩
  | error => cases ran

theorem of_error (h : Matched Q E r r') {e : ε} {t : τ} (ran : r = (.error e, t)) :
    ∃ e' t', r' = (.error e', t') ∧ E e e' t t' := by
  cases h with
  | ok => cases ran
  | error holds =>
    cases ran
    exact ⟨_, _, rfl, holds⟩

theorem weaken {Q' : β → β' → τ → τ' → Prop} {E' : ε → ε' → τ → τ' → Prop} (h : Matched Q E r r')
    (after : ∀ b b' t t', r = (.ok b, t) → r' = (.ok b', t') → Q b b' t t' → Q' b b' t t')
    (failed : ∀ e e' t t', r = (.error e, t) → r' = (.error e', t') → E e e' t t' → E' e e' t t') :
    Matched Q' E' r r' := by
  cases h with
  | ok holds => exact .ok (after _ _ _ _ rfl rfl holds)
  | error holds => exact .error (failed _ _ _ _ rfl rfl holds)

/-- Two steps on parts of their states go alike as the steps themselves do. -/
theorem within {ε₁ ε₁' τ₁ τ₁' : Type} {part : τ₁ → τ} {put : τ → τ₁ → τ₁} {rename : ε → ε₁}
    {part' : τ₁' → τ'} {put' : τ' → τ₁' → τ₁'} {rename' : ε' → ε₁'} {t : τ₁} {t' : τ₁'}
    {Q' : β → β' → τ₁ → τ₁' → Prop} {E' : ε₁ → ε₁' → τ₁ → τ₁' → Prop}
    (h : Matched Q E (x.outcome (part t)) (y.outcome (part' t')))
    (after : ∀ b b' u u', Q b b' u u' → Q' b b' (put u t) (put' u' t'))
    (failed : ∀ e e' u u', E e e' u u' → E' (rename e) (rename' e') (put u t) (put' u' t')) :
    Matched Q' E' ((x.within part put rename).outcome t)
      ((y.within part' put' rename').outcome t') := by
  rw [outcome_within, outcome_within]
  generalize x.outcome (part t) = r at h ⊢
  generalize y.outcome (part' t') = r' at h ⊢
  cases h with
  | ok holds => exact .ok (after _ _ _ _ holds)
  | error holds => exact .error (failed _ _ _ _ holds)

end Matched

namespace Alike

theorem pure {b : β} {b' : β'} (holds : ∀ t t', R t t' → Q b b' t t') :
    Alike R (pure b : Step ε τ β) (pure b' : Step ε' τ' β') Q E :=
  fun t t' related => .ok (holds t t' related)

theorem throw {e : ε} {e' : ε'} (holds : ∀ t t', R t t' → E e e' t t') :
    Alike R (throw e : Step ε τ β) (throw e' : Step ε' τ' β') Q E :=
  fun t t' related => .error (holds t t' related)

theorem modify {f : τ → τ} {g : τ' → τ'} {Q : PUnit → PUnit → τ → τ' → Prop}
    (holds : ∀ t t', R t t' → Q ⟨⟩ ⟨⟩ (f t) (g t')) :
    Alike R (modify f : Step ε τ PUnit) (modify g : Step ε' τ' PUnit) Q E :=
  fun t t' related => .ok (holds t t' related)

theorem bind {S : γ → γ' → τ → τ' → Prop} {f : β → Step ε τ γ} {g : β' → Step ε' τ' γ'}
    (first : Alike R x y Q E) (second : ∀ b b', Alike (Q b b') (f b) (g b') S E) :
    Alike R (x >>= f) (y >>= g) S E := by
  intro t t' related
  have here := first t t' related
  rw [outcome_bind, outcome_bind]
  generalize x.outcome t = r at here ⊢
  generalize y.outcome t' = r' at here ⊢
  cases here with
  | ok holds => exact second _ _ _ _ holds
  | error holds => exact .error holds

theorem weaken {R' : τ → τ' → Prop} {Q' : β → β' → τ → τ' → Prop} {E' : ε → ε' → τ → τ' → Prop}
    (h : Alike R x y Q E) (before : ∀ t t', R' t t' → R t t')
    (after : ∀ b b' t t', Q b b' t t' → Q' b b' t t')
    (failed : ∀ e e' t t', E e e' t t' → E' e e' t t') : Alike R' x y Q' E' :=
  fun t t' related => (h t t' (before t t' related)).weaken
    (fun b b' u u' _ _ => after b b' u u') fun e e' u u' _ _ => failed e e' u u'

end Alike

end SmoothOpt.Step
