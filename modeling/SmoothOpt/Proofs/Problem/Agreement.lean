import SmoothOpt.Problem.Bounds
import SmoothOpt.Proofs.Alike
import SmoothOpt.Proofs.Problem.Answer

/-!
Problems that agree.

A callback is steady when its answer does not depend on its memory, and settled when a success also
leaves a value that does not depend on what was there before. A problem is repeatable when its
callbacks are. Two problems agree when their evaluations go alike wherever a run evaluates them; a
repeatable problem agrees with itself, whatever it remembers.
-/
namespace SmoothOpt

open Scalar Linear Step

variable {α σ β : Type} {d : Dims}

/-- The answer of a call does not depend on the memory. -/
def Steady (call : StateM σ (Reply β)) : Prop := ∀ w w', (call.run w).1 = (call.run w').1

/-- A steady call whose success leaves one value, whatever was there before. -/
structure Settled (call : StateM σ (Reply β)) : Prop where
  steady : Steady call
  whole : ∀ w, (call.run w).1.ok = true →
    ∀ old old', (call.run w).1.onto old = (call.run w).1.onto old'

/-- A callback without memory is steady. -/
theorem Steady.of_pure (r : Reply β) : Steady (pure r : StateM σ (Reply β)) := fun _ _ => rfl

/-- A callback without memory that writes its output is settled, whether it succeeds or not. -/
theorem Settled.of_written (v : β) (ok : Bool) : Settled (pure ⟨some v, ok⟩ : StateM σ (Reply β)) :=
  ⟨fun _ _ => rfl, fun _ _ _ _ => rfl⟩

/-- A place for nothing holds nothing. -/
theorem Settled.of_empty {call : StateM σ (Reply (Vector β 0))} (steady : Steady call) :
    Settled call := ⟨steady, fun _ _ _ _ => Vector.eq_empty.trans Vector.eq_empty.symm⟩

/-- Writing twice is writing once. -/
theorem Reply.onto_onto (r : Reply β) (old : β) : r.onto (r.onto old) = r.onto old := by
  obtain ⟨_ | v, ok⟩ := r <;> rfl

/-- The callbacks answer the same at all times, and a success writes all of its output. -/
structure Problem.Repeatable (p : Problem α σ d) : Prop where
  variableBounds : Steady p.variableBounds
  inequalityBounds : Steady p.inequalityBounds
  start : Settled p.start
  objective : ∀ x newX, Settled (p.objective x newX)
  gradient : ∀ x newX, Settled (p.gradient x newX)
  equalities : ∀ x newX, Settled (p.equalities x newX)
  inequalities : ∀ x newX, Settled (p.inequalities x newX)
  equalityJacobian : ∀ x newX, Steady (p.equalityJacobian x newX)
  inequalityJacobian : ∀ x newX, Steady (p.inequalityJacobian x newX)
  hessian : ∀ x newX w yc yd, Steady (p.hessian x newX w yc yd)

/-- Two answers that succeed alike, and then leave the same over `old`. -/
structure Reply.SameOver (old : β) (r r' : Reply β) : Prop where
  ok : r'.ok = r.ok
  value : r.ok = true → r'.onto old = r.onto old

/-- Two problems whose evaluations go alike. Derivatives are compared where the values succeed, and
Hessians where everything does. -/
structure Problem.Agrees [Scalar α] (p q : Problem α σ d) : Prop where
  start : ∀ w w', (p.start.run w).1.SameOver (Vector.replicate _ 0) (q.start.run w').1
  values : ∀ x, Alike (fun _ _ => True) (Evaluation.funcs p x) (Evaluation.funcs q x)
    (fun _ _ t t' => t.1.SameValues t'.1) fun _ _ _ _ => True
  derivatives : ∀ x, (∃ e, Evaluation.ValuesAt p x e) →
    Alike (fun t t' => t.1.SameValues t'.1) (Evaluation.derivs p x) (Evaluation.derivs q x)
      (fun _ _ t t' => t'.1 = t.1) fun _ _ t t' => t.1.SameValues t'.1
  hessian : ∀ x yc yd, (∃ e, Evaluation.AnswersAt p x e) → ∀ w w',
    ((p.hessian x false 1 yc yd).run w).1.SameOver Dense.zeros
      ((q.hessian x false 1 yc yd).run w').1

namespace Evaluation

structure SameDerivatives (e e' : Evaluation α d) : Prop where
  grad : e'.grad = e.grad
  jacEq : e'.jacEq = e.jacEq
  jacIneq : e'.jacIneq = e.jacIneq

section Ask

variable {what : Quantity} {call : StateM σ (Reply β)} {read : Evaluation α d → β}
  {store : β → Evaluation α d → Evaluation α d} {finite : β → Bool}

/-- A settled call goes alike from any two evaluations: a success stores one value, a failure two
values that may differ. -/
theorem ask_settled (settled : Settled call) {R S T : Evaluation α d → Evaluation α d → Prop}
    (stored : ∀ v e e', R e e' → S (store v e) (store v e'))
    (failed : ∀ v v' e e', R e e' → T (store v e) (store v' e')) :
    Alike (fun t t' => R t.1 t'.1) (ask what call read store finite)
      (ask what call read store finite) (fun _ _ t t' => S t.1 t'.1)
      fun _ _ t t' => T t.1 t'.1 := by
  intro t t' related
  rw [outcome_ask, outcome_ask, settled.steady t'.2 t.2]
  by_cases good : (call.run t.2).1.ok = true
  · rw [settled.whole t.2 good (read t'.1) (read t.1)]
    split
    · exact .ok (stored _ _ _ related)
    · exact .error (failed _ _ _ _ related)
  · simp only [good, Bool.false_and, Bool.false_eq_true, if_false]
    exact .error (failed _ _ _ _ related)

/-- A steady call goes alike over two equal places. -/
theorem ask_steady (steady : Steady call) {R S : Evaluation α d → Evaluation α d → Prop}
    (same : ∀ e e', R e e' → read e' = read e)
    (stored : ∀ v e e', R e e' → S (store v e) (store v e')) :
    Alike (fun t t' => R t.1 t'.1) (ask what call read store finite)
      (ask what call read store finite) (fun _ _ t t' => S t.1 t'.1)
      fun _ _ t t' => S t.1 t'.1 := by
  intro t t' related
  rw [outcome_ask, outcome_ask, steady t'.2 t.2, same _ _ related]
  split
  · exact .ok (stored _ _ _ related)
  · exact .error (stored _ _ _ related)

end Ask

variable [Scalar α] {p : Problem α σ d}

theorem funcs_repeatable (repeatable : p.Repeatable) (x : Vector α d.n) :
    Alike (fun _ _ => True) (funcs p x) (funcs p x) (fun _ _ t t' => t.1.SameValues t'.1)
      fun _ _ _ _ => True := by
  unfold funcs
  refine .bind (ask_settled (repeatable.objective x true) (R := fun _ _ => True)
    (S := fun e e' => e'.f = e.f) (T := fun _ _ => True) ?_ fun _ _ _ _ _ => trivial) fun _ _ => ?_
  · intro v e e' _
    rfl
  refine .bind (ask_settled (repeatable.equalities x false) (R := fun e e' => e'.f = e.f)
    (S := fun e e' => e'.f = e.f ∧ e'.eq = e.eq) (T := fun _ _ => True) ?_
    fun _ _ _ _ _ => trivial) fun _ _ => ?_
  · intro v e e' f
    exact ⟨f, rfl⟩
  refine ask_settled (repeatable.inequalities x false) (R := fun e e' => e'.f = e.f ∧ e'.eq = e.eq)
    (S := SameValues) (T := fun _ _ => True) ?_ fun _ _ _ _ _ => trivial
  · intro v e e' same
    exact ⟨same.1, same.2, rfl⟩

/-- Derivatives are written anew, whatever is there: the gradient as a whole, the Jacobians over
zero matrices. -/
theorem derivs_anew (repeatable : p.Repeatable) (x : Vector α d.n) :
    Alike (fun _ _ => True) (derivs p x) (derivs p x)
      (fun _ _ t t' => t.1.SameDerivatives t'.1) fun _ _ _ _ => True := by
  unfold derivs
  refine .bind (ask_settled (repeatable.gradient x false) (R := fun _ _ => True)
    (S := fun e e' => e'.grad = e.grad) (T := fun _ _ => True) (fun _ _ _ _ => rfl)
    fun _ _ _ _ _ => trivial) fun _ _ => ?_
  refine .bind (.modify (Q := fun _ _ t t' => t.1.SameDerivatives t'.1) ?_) fun _ _ => ?_
  · intro t t' grad
    exact ⟨grad, rfl, rfl⟩
  refine .bind (Q := fun _ _ t t' => t.1.SameDerivatives t'.1) ?_ fun _ _ => ?_
  · refine (ask_steady (repeatable.equalityJacobian x false) (S := SameDerivatives)
      (fun _ _ same => same.jacEq) ?_).weaken (fun _ _ => id) (fun _ _ _ _ => id)
        fun _ _ _ _ _ => trivial
    intro v e e' same
    exact ⟨same.grad, rfl, same.jacIneq⟩
  · refine (ask_steady (repeatable.inequalityJacobian x false) (S := SameDerivatives)
      (fun _ _ same => same.jacIneq) ?_).weaken (fun _ _ => id) (fun _ _ _ _ => id)
        fun _ _ _ _ _ => trivial
    intro v e e' same
    exact ⟨same.grad, same.jacEq, rfl⟩

omit [Scalar α] in
theorem eq_of_same {e e' : Evaluation α d} (values : e.SameValues e')
    (derivatives : e.SameDerivatives e') : e' = e := by
  obtain ⟨_, _, _, _, _, _⟩ := e
  obtain ⟨_, _, _, _, _, _⟩ := e'
  obtain ⟨rfl, rfl, rfl⟩ := values
  obtain ⟨rfl, rfl, rfl⟩ := derivatives
  rfl

/-- Asking for the derivatives leaves the values there are. -/
theorem derivs_values {x : Vector α d.n} {t t' : Evaluation α d × σ} {r : Except Quantity Unit}
    (ran : (derivs p x).outcome t = (r, t')) : t.1.SameValues t'.1 := by
  have kept := derivs_sameValues p x t.1 t ⟨rfl, rfl, rfl⟩
  rw [ran] at kept
  cases r with
  | error => exact kept
  | ok => exact kept

/-- Over the same values the derivatives complete one evaluation. -/
theorem derivs_repeatable (repeatable : p.Repeatable) (x : Vector α d.n) :
    Alike (fun t t' => t.1.SameValues t'.1) (derivs p x) (derivs p x)
      (fun _ _ t t' => t'.1 = t.1) fun _ _ t t' => t.1.SameValues t'.1 := by
  intro t t' same
  have joined {u u' : Evaluation α d × σ} {r r' : Except Quantity Unit}
      (ran : (derivs p x).outcome t = (r, u)) (ran' : (derivs p x).outcome t' = (r', u')) :
      u.1.SameValues u'.1 := by
    have kept := derivs_values ran
    have kept' := derivs_values ran'
    exact ⟨kept'.f.trans (same.f.trans kept.f.symm), kept'.eq.trans (same.eq.trans kept.eq.symm),
      kept'.ineq.trans (same.ineq.trans kept.ineq.symm)⟩
  refine (derivs_anew repeatable x t t' trivial).weaken ?_ ?_
  · intro _ _ u u' ran ran' derivatives
    exact eq_of_same (joined ran ran') derivatives
  · intro _ _ u u' ran ran' _
    exact joined ran ran'

/-- Asking for everything asks for the objective first, and what that leaves stays. -/
theorem all_objective (p : Problem α σ d) (x : Vector α d.n) (e : Evaluation α d) (w : σ) :
    ((all p x).outcome (e, w)).2.1.f = ((p.objective x true).run w).1.onto e.f := by
  have first : Ensures (· = (e, w)) (ask .objective (p.objective x true) (·.f)
      (fun v e => { e with f := v }) isFinite)
      (fun _ t => t.1.f = ((p.objective x true).run w).1.onto e.f)
      fun t => t.1.f = ((p.objective x true).run w).1.onto e.f := by
    rintro _ rfl
    rw [outcome_ask]
    split <;> rename_i same <;> obtain ⟨-, rfl⟩ := Prod.mk.inj same <;> rfl
  have kept {β : Type} {what : Quantity} {call : StateM σ (Reply β)} {read : Evaluation α d → β}
      {store : β → Evaluation α d → Evaluation α d} {finite : β → Bool}
      (elsewhere : ∀ v e, (store v e).f = e.f) (f : α) :
      Keeps (fun t => t.1.f = f) (ask what call read store finite) := by
    refine ask_ensures ?_
    intro t v same
    exact (elsewhere v t.1).trans same
  have whole : Ensures (· = (e, w)) (all p x)
      (fun _ t => t.1.f = ((p.objective x true).run w).1.onto e.f)
      fun t => t.1.f = ((p.objective x true).run w).1.onto e.f := by
    unfold all funcs derivs
    refine .bind (.bind first fun _ => .bind (kept ?_ _) fun _ => kept ?_ _) fun _ =>
      .bind (kept ?_ _) fun _ => .bind (.modify fun _ => id) fun _ =>
        .bind (kept ?_ _) fun _ => kept ?_ _
    all_goals
      intro v e
      rfl
  have left := whole (e, w) rfl
  rcases ran : (all p x).outcome (e, w) with ⟨_ | _, t⟩
  · rw [ran] at left
    exact left
  · rw [ran] at left
    exact left

end Evaluation

/-- A repeatable problem is given one answer about its bounds. -/
theorem Bounds.ofProblem_steady [Scalar α] {p : Problem α σ d} (repeatable : p.Repeatable)
    (rule : Bounds.FixedRule α) (w w' : σ) :
    ((Bounds.ofProblem p rule).run w').1 = ((Bounds.ofProblem p rule).run w).1 := by
  unfold Bounds.ofProblem
  dsimp only
  rw [run_bind, run_bind, repeatable.variableBounds w' w]
  split
  · rfl
  · rw [run_bind, run_bind, repeatable.inequalityBounds _ (p.variableBounds.run w).2]
    split
    · rfl
    · rfl

/-- A repeatable problem agrees with itself. -/
theorem Problem.Repeatable.agrees [Scalar α] {p : Problem α σ d} (repeatable : p.Repeatable) :
    p.Agrees p where
  start w w' := by
    rw [repeatable.start.steady w w']
    exact ⟨rfl, fun _ => rfl⟩
  values := Evaluation.funcs_repeatable repeatable
  derivatives x _ := Evaluation.derivs_repeatable repeatable x
  hessian x yc yd _ w w' := by
    rw [repeatable.hessian x false 1 yc yd w w']
    exact ⟨rfl, fun _ => rfl⟩

namespace Problem.Agrees

variable [Scalar α] {p q : Problem α σ d}

/-- Everything at a point goes alike: a success leaves one evaluation. -/
theorem all (agrees : p.Agrees q) (x : Vector α d.n) :
    Alike (fun _ _ => True) (Evaluation.all p x) (Evaluation.all q x)
      (fun _ _ t t' => t'.1 = t.1) fun _ _ _ _ => True := by
  intro t t' _
  unfold Evaluation.all
  rw [outcome_bind, outcome_bind]
  rcases evaluated : (Evaluation.funcs p x).outcome t with ⟨_ | _, u⟩
  · obtain ⟨_, _, failed, -⟩ := (agrees.values x t t' trivial).of_error evaluated
    rw [failed]
    exact .error trivial
  · obtain ⟨_, u', evaluated', same⟩ := (agrees.values x t t' trivial).of_ok evaluated
    rw [evaluated']
    have values : ∃ e, Evaluation.ValuesAt p x e := ⟨_, Evaluation.funcs_ok evaluated⟩
    exact ((agrees.derivatives x values).weaken (fun _ _ => id) (fun _ _ _ _ => id)
      fun _ _ _ _ _ => trivial) u u' same

/-- Two evaluations that fail after their values leave the same objective. -/
theorem failed_objective (agrees : p.Agrees q) {x : Vector α d.n} {t t' u r r' : Evaluation α d × σ}
    {what what' : Quantity} (values : (Evaluation.funcs p x).outcome t = (.ok (), u))
    (failed : (Evaluation.all p x).outcome t = (.error what, r))
    (failed' : (Evaluation.all q x).outcome t' = (.error what', r')) : r'.1.f = r.1.f := by
  obtain ⟨_, u', values', same⟩ := (agrees.values x t t' trivial).of_ok values
  rw [Evaluation.all, outcome_bind, values] at failed
  rw [Evaluation.all, outcome_bind, values'] at failed'
  have kept := Evaluation.derivs_values failed
  have kept' := Evaluation.derivs_values failed'
  rw [kept'.f, same.f, kept.f]

end Problem.Agrees

end SmoothOpt
