import SmoothOpt.Proofs.Penalty.View
import SmoothOpt.Proofs.Problem.Agreement

/-!
The view of a repeatable problem.

The callbacks of a view evaluate the user's problem from scratch, over places that are blank each
time. Where the user's callbacks answer the same at all times, so do they, and the subproblem is
repeatable. The user's start is the exception: it is written over the point the last run has left,
so a start that fails leaves what it has not written, and fails again with the same.
-/
namespace SmoothOpt.Penalty

open Scalar Linear Step

variable {α σ : Type} [Scalar α] {d : Dims} {p : Problem α σ d}

section Evaluations

variable (repeatable : p.Repeatable) (v : View α d)

include repeatable

theorem funcs_over_equal (x : Vector α d.n) :
    Alike (fun t t' => t'.1 = t.1) (Evaluation.funcs p x) (Evaluation.funcs p x)
      (fun _ _ t t' => t'.1 = t.1) fun _ _ _ _ => True := by
  have over_equal {β : Type} {what : Quantity} {call : StateM σ (Reply β)}
      {read : Evaluation α d → β} {store : β → Evaluation α d → Evaluation α d}
      {finite : β → Bool} (settled : Settled call) :
      Alike (fun t t' => t'.1 = t.1) (Evaluation.ask what call read store finite)
        (Evaluation.ask what call read store finite) (fun _ _ t t' => t'.1 = t.1)
        fun _ _ _ _ => True :=
    Evaluation.ask_settled settled (R := fun e e' => e' = e) (S := fun e e' => e' = e)
      (T := fun _ _ => True) (by rintro _ _ _ rfl; rfl) fun _ _ _ _ _ => trivial
  unfold Evaluation.funcs
  exact .bind (over_equal (repeatable.objective x true)) fun _ _ =>
    .bind (over_equal (repeatable.equalities x false)) fun _ _ =>
      over_equal (repeatable.inequalities x false)

/-- An evaluation from scratch gives the same at all times. -/
theorem evaluateAt_steady (z : Vector α (d.n + d.mIneq)) (derivatives : Bool) (w w' : σ) :
    ((View.evaluateAt p z derivatives).run w').1 = ((View.evaluateAt p z derivatives).run w).1 := by
  have alike : Matched (fun _ _ t t' => t'.1 = t.1) (fun _ _ _ _ => True)
      ((if derivatives then Evaluation.all p (variablePart z)
        else Evaluation.funcs p (variablePart z)).outcome (.blank, w))
      ((if derivatives then Evaluation.all p (variablePart z)
        else Evaluation.funcs p (variablePart z)).outcome (.blank, w')) := by
    cases derivatives with
    | true => exact repeatable.agrees.all _ _ _ trivial
    | false => exact funcs_over_equal repeatable _ _ _ rfl
  simp only [View.evaluateAt, StateT.run]
  generalize (if derivatives then Evaluation.all p (variablePart z)
    else Evaluation.funcs p (variablePart z)).outcome (.blank, w) = r at alike ⊢
  generalize (if derivatives then Evaluation.all p (variablePart z)
    else Evaluation.funcs p (variablePart z)).outcome (.blank, w') = r' at alike ⊢
  cases alike with
  | @ok _ _ t t' same =>
    obtain ⟨e, w₁⟩ := t
    obtain ⟨_, w₂⟩ := t'
    obtain rfl : _ = e := same
    rfl
  | error => rfl

theorem residuals_steady (z : Vector α (d.n + d.mIneq)) (w w' : σ) :
    ((v.residuals p z).run w').1 = ((v.residuals p z).run w).1 := by
  have same := evaluateAt_steady repeatable z true w w'
  simp only [View.residuals, run_bind, same]
  cases ((View.evaluateAt p z true).run w).1 <;> rfl

/-- A callback that evaluates from scratch and writes what follows is settled. -/
theorem settled_of_evaluateAt {β : Type} (z : Vector α (d.n + d.mIneq)) (derivatives : Bool)
    {call : StateM σ (Reply β)} (reply : Evaluation α d × Vector α (entryCount d) → Reply β)
    (answer : ∀ w, (call.run w).1 =
      (((View.evaluateAt p z derivatives).run w).1.map reply).getD (.silent false))
    (written : ∀ r old old', (reply r).onto old = (reply r).onto old') : Settled call := by
  refine ⟨fun w w' => ?_, fun w good old old' => ?_⟩
  · rw [answer w, answer w', evaluateAt_steady repeatable z derivatives w' w]
  · rw [answer w] at good ⊢
    cases found : ((View.evaluateAt p z derivatives).run w).1 with
    | none =>
      rw [found] at good
      cases good
    | some r => exact written r old old'

/-- The view of a repeatable problem is repeatable. -/
theorem View.problem_repeatable : (v.problem p).Repeatable where
  variableBounds := .of_pure _
  inequalityBounds := .of_pure _
  start := .of_written _ _
  objective z _ := by
    refine settled_of_evaluateAt repeatable z false
      (fun r => ⟨some (v.merit r.1 r.2), isFinite (v.merit r.1 r.2)⟩) (fun w => ?_)
      fun _ _ _ => rfl
    simp only [View.problem, run_bind]
    cases ((View.evaluateAt p z false).run w).1 <;> rfl
  gradient z _ := by
    refine settled_of_evaluateAt repeatable z true (fun r => .good (v.meritGradient r.1 r.2))
      (fun w => ?_) fun _ _ _ => rfl
    simp only [View.problem, run_bind]
    cases ((View.evaluateAt p z true).run w).1 <;> rfl
  equalities _ _ := .of_empty (.of_pure _)
  inequalities _ _ := .of_empty (.of_pure _)
  equalityJacobian _ _ := .of_pure _
  inequalityJacobian _ _ := .of_pure _
  hessian z _ weight _ _ := by
    intro w w'
    simp only [View.problem, run_bind, evaluateAt_steady repeatable z true w w']
    cases ((View.evaluateAt p z true).run w).1 with
    | none => rfl
    | some r =>
      obtain ⟨e, penalty⟩ := r
      dsimp only
      rw [run_bind, run_bind, repeatable.hessian _ _ _ _ _ ((View.evaluateAt p z true).run w').2
        ((View.evaluateAt p z true).run w).2]
      split <;> rfl

end Evaluations

section Start

omit [Scalar α] in
theorem variablePart_append (x : Vector α d.n) (s : Vector α d.mIneq) :
    variablePart (x ++ s) = x :=
  ext_get fun i => by rw [variablePart, get_firstPart, get_append_castAdd]

omit [Scalar α] in
theorem slackPart_append (x : Vector α d.n) (s : Vector α d.mIneq) : slackPart (x ++ s) = s :=
  ext_get fun i => by rw [slackPart, get_lastPart, get_append_natAdd]

/-- The user's start over the point `z`, from the answers it is made of. -/
def View.startOver (v : View α d) (z : Vector α (d.n + d.mIneq)) (given : Reply (Vector α d.n))
    (body : Vector α d.n → Reply (Vector α d.mIneq)) : Bool × Vector α (d.n + d.mIneq) :=
  let x := given.onto (variablePart z)
  if !given.ok || !allFinite x.toList then (false, x ++ slackPart z) else
    let s := (body x).onto (slackPart z)
    if !(body x).ok || !allFinite s.toList then (false, x ++ s) else
      let lower : Vector (Bound α) d.mIneq := lastPart v.box.lower
      let upper : Vector (Bound α) d.mIneq := lastPart v.box.upper
      (true, x ++ Vector.ofFn fun j => clampTo (lower.get j) (upper.get j) (s.get j))

theorem userStart_steady (repeatable : p.Repeatable) (v : View α d) (z : Vector α (d.n + d.mIneq))
    (w w' : σ) : ((v.userStart p z).run w).1 =
      v.startOver z (p.start.run w').1 fun x => ((p.inequalities x true).run w').1 := by
  unfold View.userStart View.startOver
  rw [run_bind, repeatable.start.steady w w']
  dsimp only
  split
  · rfl
  · rw [run_bind, (repeatable.inequalities _ true).steady _ w']
    split
    · rfl
    · rfl

variable {v v' : View α d} {z z' : Vector α (d.n + d.mIneq)} {given : Reply (Vector α d.n)}
  {body : Vector α d.n → Reply (Vector α d.mIneq)}

/-- A start that fails leaves the point it leaves the next time. -/
theorem startOver_again (failed : v.startOver z given body = (false, z')) (v' : View α d) :
    v'.startOver z' given body = (false, z') := by
  unfold View.startOver at failed ⊢
  dsimp only at failed ⊢
  split at failed
  · rename_i refused
    obtain ⟨-, rfl⟩ := Prod.mk.inj failed
    rw [variablePart_append, slackPart_append, Reply.onto_onto, if_pos refused]
  · rename_i granted
    split at failed
    · rename_i refused
      obtain ⟨-, rfl⟩ := Prod.mk.inj failed
      rw [variablePart_append, slackPart_append, Reply.onto_onto, if_neg granted, Reply.onto_onto,
        if_pos refused]
    · cases failed

/-- A start that succeeds leaves a point that depends on nothing before it. -/
theorem startOver_anew (ok : v.startOver z given body = (true, z')) (same : v'.box = v.box)
    (whole : given.ok = true → ∀ old old', given.onto old = given.onto old')
    (body_whole : ∀ x, (body x).ok = true → ∀ old old', (body x).onto old = (body x).onto old')
    (z₁ : Vector α (d.n + d.mIneq)) : v'.startOver z₁ given body = (true, z') := by
  unfold View.startOver at ok ⊢
  dsimp only at ok ⊢
  split at ok
  · cases ok
  · rename_i granted
    have given_ok : given.ok = true := by
      by_contra refused
      simp [refused] at granted
    rw [whole given_ok (variablePart z₁) (variablePart z), if_neg granted]
    split at ok
    · cases ok
    · rename_i granted'
      have body_ok : (body (given.onto (variablePart z))).ok = true := by
        by_contra refused
        simp [refused] at granted'
      rw [body_whole _ body_ok (slackPart z₁) (slackPart z), if_neg granted', same]
      exact ok

end Start

end SmoothOpt.Penalty
