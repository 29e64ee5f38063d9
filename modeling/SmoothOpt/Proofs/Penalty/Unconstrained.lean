import SmoothOpt.Proofs.Penalty.Repeatable
import SmoothOpt.Proofs.Penalty.Subproblem

/-!
The view of a problem without general constraints.

There are no slacks and no penalty entries, so the augmented Lagrangian, its gradient and its
Hessian are the objective, its gradient and its Hessian, whatever the multipliers and the penalty
parameter. Every callback of the view evaluates the problem from scratch, and on a repeatable
problem that makes no difference: the problem and its view agree, and so do their bounds.
-/
namespace SmoothOpt

open Scalar Linear Step

variable {σ : Type} {n : ℕ} {d : Dims}

namespace Evaluation

variable {p : Problem ℝ σ d} (repeatable : p.Repeatable) {x : Vector ℝ d.n} {e : Evaluation ℝ d}

/-- A steady call that has succeeded succeeds at all times. -/
theorem ask_of_answered {β : Type} {what : Quantity} {call : StateM σ (Reply β)}
    {read : Evaluation ℝ d → β} {store : β → Evaluation ℝ d → Evaluation ℝ d} {finite : β → Bool}
    (steady : Steady call) {w : σ} (ok : (call.run w).1.ok = true) (total : ∀ v, finite v = true)
    (t : Evaluation ℝ d × σ) :
    ∃ t', (ask what call read store finite).outcome t = (.ok (), t') :=
  ask_succeeds (fun w' => (congrArg Reply.ok (steady w' w)).trans ok) total t

include repeatable

theorem funcs_of_values (values : e.ValuesAt p x) (t : Evaluation ℝ d × σ) :
    ∃ t', (funcs p x).outcome t = (.ok (), t') := by
  obtain ⟨⟨_, w₁, f, -⟩, ⟨_, w₂, eq, -⟩, ⟨_, w₃, ineq, -⟩⟩ := values
  obtain ⟨t₁, first⟩ := ask_of_answered (repeatable.objective x true).steady f isFinite_real t
  obtain ⟨t₂, second⟩ := ask_of_answered (repeatable.equalities x false).steady eq
    (fun v => allFinite_real v.toList) t₁
  obtain ⟨t₃, third⟩ := ask_of_answered (repeatable.inequalities x false).steady ineq
    (fun v => allFinite_real v.toList) t₂
  simp only [funcs, outcome_bind_ok]
  exact ⟨t₃, (), t₁, first, (), t₂, second, third⟩

theorem all_of_answers (answers : e.AnswersAt p x) (t : Evaluation ℝ d × σ) :
    ∃ t', (all p x).outcome t = (.ok (), t') := by
  obtain ⟨t₀, values⟩ := funcs_of_values repeatable answers.toValuesAt t
  obtain ⟨-, ⟨_, w₁, grad, -⟩, ⟨w₂, jacEq, -⟩, ⟨w₃, jacIneq, -⟩⟩ := answers
  obtain ⟨t₁, first⟩ := ask_of_answered (repeatable.gradient x false).steady grad
    (fun v => allFinite_real v.toList) t₀
  obtain ⟨t₂, second⟩ := ask_of_answered (repeatable.equalityJacobian x false) jacEq
    (fun v => allFinite_real v.entries) (t₁.1.clearJacobians, t₁.2)
  obtain ⟨t₃, third⟩ := ask_of_answered (repeatable.inequalityJacobian x false) jacIneq
    (fun v => allFinite_real v.entries) t₂
  simp only [all, derivs, outcome_bind_ok, outcome_modify_bind]
  exact ⟨t₃, (), t₀, values, (), t₁, first, (), t₂, second, third⟩

end Evaluation

namespace Penalty

section Callbacks

variable {p : Problem ℝ σ ⟨n, 0, 0⟩} (v : View ℝ ⟨n, 0, 0⟩)

theorem variablePart_eq (z : Vector ℝ n) : variablePart (d := ⟨n, 0, 0⟩) z = z :=
  ext_get fun i => get_firstPart (m := n) (n := 0) z i

theorem merit_eq (e : Evaluation ℝ ⟨n, 0, 0⟩) (penalty : Vector ℝ 0) : v.merit e penalty = e.f := by
  have none (a b : Vector ℝ 0) : Dense.inner a b = 0 := by
    simp [Dense.inner_eq_sum]
  have lagrangian : v.merit e penalty = e.f + Dense.inner (n := 0) v.lambda penalty +
      0.5 * v.rho * Dense.inner penalty penalty := rfl
  rw [lagrangian, none, none, add_zero, mul_zero, add_zero]

theorem meritGradient_eq (e : Evaluation ℝ ⟨n, 0, 0⟩) (penalty : Vector ℝ 0) :
    v.meritGradient e penalty = e.grad := by
  refine ext_get fun (i : Fin n) => ?_
  refine (get_meritGradient (v := v) (e := e) (i.castAdd 0)).trans ?_
  rw [Fin.append_left]
  exact add_eq_left.mpr (Finset.sum_eq_zero fun k _ => Fin.elim0 k)

theorem meritHessian_eq (e : Evaluation ℝ ⟨n, 0, 0⟩) (hess : Dense ℝ n n) :
    v.meritHessian e hess 1 = hess := by
  refine ext_get fun (i : Fin n) => ext_get fun (j : Fin n) => ?_
  refine (meritHessian_xx (v := v) (e := e) hess 1 i j).trans ?_
  rw [Finset.sum_eq_zero fun r _ => Fin.elim0 r, Finset.sum_eq_zero fun r _ => Fin.elim0 r,
    add_zero, mul_zero, add_zero, one_mul]
  rfl

variable {v} {x : Vector ℝ n} {w w' : σ} {e' : Evaluation ℝ ⟨n, 0, 0⟩} {what : Quantity}

theorem objective_view_ok
    (evaluated : (Evaluation.funcs p x).outcome (.blank, w) = (.ok (), (e', w'))) (newX : Bool) :
    ((v.problem p).objective x newX).run w = (.good e'.f, w') := by
  rw [← variablePart_eq x] at evaluated
  have ran : (View.evaluateAt p x false).run w = _ := evaluateAt_of_outcome evaluated
  simp only [View.problem, run_bind, ran, merit_eq, isFinite_real]
  rfl

theorem objective_view_error
    (failed : (Evaluation.funcs p x).outcome (.blank, w) = (.error what, (e', w'))) (newX : Bool) :
    ((v.problem p).objective x newX).run w = (.silent false, w') := by
  rw [← variablePart_eq x] at failed
  have ran : (View.evaluateAt p x false).run w = (none, w') := by
    simp only [View.evaluateAt, StateT.run, Bool.false_eq_true, if_false, failed]
  simp only [View.problem, run_bind, ran]
  rfl

/-- The values of the view are those of the problem, evaluated from scratch. -/
theorem funcs_view_ok
    (evaluated : (Evaluation.funcs p x).outcome (.blank, w) = (.ok (), (e', w')))
    (e : Evaluation ℝ ⟨n, 0, 0⟩) :
    (Evaluation.funcs (v.problem p) x).outcome (e, w) = (.ok (), ({ e with f := e'.f }, w')) := by
  have asked := objective_view_ok (v := v) evaluated true
  rw [Evaluation.funcs, outcome_bind, Evaluation.outcome_ask, asked]
  simp only [Reply.good, isFinite_real, Bool.and_self, if_true, outcome_bind,
    Evaluation.outcome_ask, allFinite_real, Bool.and_true]
  rfl

theorem funcs_view_error
    (failed : (Evaluation.funcs p x).outcome (.blank, w) = (.error what, (e', w')))
    (e : Evaluation ℝ ⟨n, 0, 0⟩) :
    (Evaluation.funcs (v.problem p) x).outcome (e, w) = (.error .objective, (e, w')) := by
  have asked := objective_view_error (v := v) failed true
  rw [Evaluation.funcs, outcome_bind, Evaluation.outcome_ask, asked]
  rfl

theorem gradient_view_ok
    (evaluated : (Evaluation.all p x).outcome (.blank, w) = (.ok (), (e', w'))) (newX : Bool) :
    ((v.problem p).gradient x newX).run w = (.good e'.grad, w') := by
  rw [← variablePart_eq x] at evaluated
  have ran : (View.evaluateAt p x true).run w = _ := evaluateAt_of_outcome evaluated
  simp only [View.problem, run_bind, ran, meritGradient_eq]
  rfl

theorem gradient_view_error
    (failed : (Evaluation.all p x).outcome (.blank, w) = (.error what, (e', w'))) (newX : Bool) :
    ((v.problem p).gradient x newX).run w = (.silent false, w') := by
  rw [← variablePart_eq x] at failed
  have ran : (View.evaluateAt p x true).run w = (none, w') := by
    simp only [View.evaluateAt, StateT.run, if_true, failed]
  simp only [View.problem, run_bind, ran]
  rfl

/-- The gradient of the view is that of the problem, evaluated from scratch. -/
theorem derivs_view_ok
    (evaluated : (Evaluation.all p x).outcome (.blank, w) = (.ok (), (e', w')))
    (e : Evaluation ℝ ⟨n, 0, 0⟩) :
    (Evaluation.derivs (v.problem p) x).outcome (e, w) =
      (.ok (), ({ e with grad := e'.grad, jacEq := Dense.zeros, jacIneq := Dense.zeros }, w')) := by
  have asked := gradient_view_ok (v := v) evaluated false
  rw [Evaluation.derivs, outcome_bind, Evaluation.outcome_ask, asked]
  simp only [Reply.good, allFinite_real, Bool.and_self, if_true, outcome_bind,
    Evaluation.outcome_ask, Bool.and_true]
  rfl

theorem derivs_view_error
    (failed : (Evaluation.all p x).outcome (.blank, w) = (.error what, (e', w')))
    (e : Evaluation ℝ ⟨n, 0, 0⟩) :
    (Evaluation.derivs (v.problem p) x).outcome (e, w) = (.error .gradient, (e, w')) := by
  have asked := gradient_view_error (v := v) failed false
  rw [Evaluation.derivs, outcome_bind, Evaluation.outcome_ask, asked]
  rfl

end Callbacks

section Agreement

variable {p : Problem ℝ σ ⟨n, 0, 0⟩} (repeatable : p.Repeatable) {v : View ℝ ⟨n, 0, 0⟩}

include repeatable

theorem view_values (x : Vector ℝ n) :
    Alike (fun _ _ => True) (Evaluation.funcs p x) (Evaluation.funcs (v.problem p) x)
      (fun _ _ t t' => t.1.SameValues t'.1) fun _ _ _ _ => True := by
  rintro t ⟨e, w⟩ -
  have alike := Evaluation.funcs_repeatable repeatable x t (.blank, w) trivial
  rcases evaluated : (Evaluation.funcs p x).outcome t with ⟨what | _, t₁⟩
  · obtain ⟨_, ⟨e', w'⟩, failed, -⟩ := alike.of_error evaluated
    rw [funcs_view_error failed]
    exact .error trivial
  · obtain ⟨_, ⟨e', w'⟩, scratch, same⟩ := alike.of_ok evaluated
    rw [funcs_view_ok scratch]
    exact .ok ⟨same.f, Vector.eq_empty.trans Vector.eq_empty.symm,
      Vector.eq_empty.trans Vector.eq_empty.symm⟩

/-- Where the values succeed, everything from scratch goes as the derivatives alone do. -/
theorem derivs_alike_all {x : Vector ℝ n} (values : ∃ e, Evaluation.ValuesAt p x e)
    (t : Evaluation ℝ ⟨n, 0, 0⟩ × σ) (w : σ) :
    Matched (fun _ _ t t' => t.1.SameDerivatives t'.1) (fun _ _ _ _ => True)
      ((Evaluation.derivs p x).outcome t) ((Evaluation.all p x).outcome (.blank, w)) := by
  obtain ⟨e, values⟩ := values
  obtain ⟨u, first⟩ := Evaluation.funcs_of_values repeatable values (.blank, w)
  rw [Evaluation.all, outcome_bind, first]
  exact Evaluation.derivs_anew repeatable x t u trivial

theorem view_derivatives {x : Vector ℝ n} (values : ∃ e, Evaluation.ValuesAt p x e) :
    Alike (fun t t' => t.1.SameValues t'.1) (Evaluation.derivs p x)
      (Evaluation.derivs (v.problem p) x) (fun _ _ t t' => t'.1 = t.1)
      fun _ _ t t' => t.1.SameValues t'.1 := by
  rintro t ⟨e, w⟩ same
  have alike := derivs_alike_all repeatable values t w
  rcases evaluated : (Evaluation.derivs p x).outcome t with ⟨what | _, t₁⟩
  · have kept := Evaluation.derivs_values evaluated
    obtain ⟨_, ⟨e', w'⟩, failed, -⟩ := alike.of_error evaluated
    rw [derivs_view_error failed]
    exact .error ⟨same.f.trans kept.f.symm, same.eq.trans kept.eq.symm,
      same.ineq.trans kept.ineq.symm⟩
  · have kept := Evaluation.derivs_values evaluated
    obtain ⟨_, ⟨e', w'⟩, scratch, derivatives⟩ := alike.of_ok evaluated
    rw [derivs_view_ok scratch]
    refine .ok (Evaluation.eq_of_same ⟨same.f.trans kept.f.symm, same.eq.trans kept.eq.symm,
      same.ineq.trans kept.ineq.symm⟩ ⟨derivatives.grad, ?_, ?_⟩)
    · exact Vector.eq_empty.trans Vector.eq_empty.symm
    · exact Vector.eq_empty.trans Vector.eq_empty.symm

theorem view_hessian {x : Vector ℝ n} (yc yd : Vector ℝ 0)
    (answers : ∃ e, Evaluation.AnswersAt p x e) (w w' : σ) :
    ((p.hessian x false 1 yc yd).run w).1.SameOver Dense.zeros
      (((v.problem p).hessian x false 1 yc yd).run w').1 := by
  obtain ⟨e, answers⟩ := answers
  obtain ⟨⟨e', w₁⟩, evaluated⟩ := Evaluation.all_of_answers repeatable answers (.blank, w')
  rw [← variablePart_eq x] at evaluated
  have ran : (View.evaluateAt p x true).run w' = _ := evaluateAt_of_outcome evaluated
  have asked (a b : Vector ℝ 0) :
      ((p.hessian (variablePart (d := ⟨n, 0, 0⟩) x) false 1 a b).run w₁).1 =
        ((p.hessian x false 1 yc yd).run w).1 := by
    obtain rfl : a = yc := Vector.eq_empty.trans Vector.eq_empty.symm
    obtain rfl : b = yd := Vector.eq_empty.trans Vector.eq_empty.symm
    rw [variablePart_eq, repeatable.hessian x false 1 a b w₁ w]
  simp only [View.problem, run_bind, ran, asked]
  by_cases good : ((p.hessian x false 1 yc yd).run w).1.ok = true
  · simp only [good, Bool.not_true, Bool.false_eq_true, if_false, meritHessian_eq, allFinite_real]
    exact ⟨good.symm, fun _ => rfl⟩
  · simp only [good]
    exact ⟨(Bool.eq_false_iff.mpr good).symm, fun ok => absurd ok good⟩

/-- A problem without general constraints agrees with its view from the problem's own start. -/
theorem view_agrees (start : ∀ w, (p.start.run w).1.SameOver (Vector.replicate n 0)
    (.good v.start)) : p.Agrees (v.problem p) where
  start w _ := start w
  values := view_values repeatable
  derivatives _ := view_derivatives repeatable
  hessian _ yc yd answers := view_hessian repeatable yc yd answers

end Agreement

end Penalty

section Bounds

variable {α : Type} [Scalar α]

def Problem.Unfixed (p : Problem α σ d) (rule : Bounds.FixedRule α) : Prop :=
  ∀ w i, rule.coincide ((p.rawBounds w).1.get i) ((p.rawBounds w).2.get i) = false

/-- Raw bounds that do not nearly coincide are flagged and left as they are. -/
theorem Bounds.ofRaw_apart {rule : Bounds.FixedRule ℝ} {xl xu : Vector ℝ n} {dl du : Vector ℝ 0}
    (unfixed : ∀ i, rule.coincide (xl.get i) (xu.get i) = false) {b : Bounds ℝ ⟨n, 0, 0⟩}
    (raw : Bounds.ofRaw rule xl xu dl du = .ok b) : b.x.Apart rule ∧ b.relaxedFixed = 0 := by
  obtain ⟨faultless, -, rfl⟩ := ofRaw_ok_iff.mp raw
  have none_else (j : Fin 0) : rule.coincide (dl.get j) (du.get j) = false := j.elim0
  rw [settledBox_of_apart unfixed, coinciding_of_apart unfixed, coinciding_of_apart none_else]
  refine ⟨⟨fun i present => ?_, fun i present => ?_, fun i _ _ => ?_, fun i _ _ => ?_⟩, rfl⟩ <;>
    simp only [Vector.get_map] at *
  · exact present
  · exact present
  · exact variableFault_none (faultless i)
  · exact unfixed i

/-- Bounds that do not nearly coincide are validated and left as they are. -/
theorem Problem.Unfixed.queried {p : Problem ℝ σ ⟨n, 0, 0⟩} {rule : Bounds.FixedRule ℝ}
    (unfixed : p.Unfixed rule) {w w' : σ} {b : Bounds ℝ ⟨n, 0, 0⟩}
    (queried : (Bounds.ofProblem p rule).run w = (.ok b, w')) :
    b.x.Apart rule ∧ b.relaxedFixed = 0 :=
  Bounds.ofRaw_apart (unfixed w) (Bounds.ofProblem_ok queried)

theorem Bound.moved_told (b : Bound α) (far shift : α) :
    (b.moved shift).told far = (b.told far).moved shift := by
  obtain ⟨value, _ | _⟩ := b
  · rfl
  · rfl

/-- Absent bounds are not moved, so it does not matter when bounds are told. -/
theorem Bounds.relax_told (b : Bounds α d) (factor : α) :
    (b.relax factor).told = b.told.relax factor := by
  unfold Bounds.relax
  split
  · rfl
  · simp only [Bounds.told, Box.told, Box.widened, Vector.map_map, Function.comp_def,
      Bound.moved_told]

/-- Without inequalities the box of the view is that of the variables. -/
theorem Penalty.View.ofBounds_box {α : Type} [Scalar α] (b : Bounds α ⟨n, 0, 0⟩) :
    (View.ofBounds b).box = b.x := by
  have lower : b.x.lower ++ b.s.lower = b.x.lower :=
    ext_get fun (i : Fin n) => get_append_castAdd (n := 0) b.x.lower b.s.lower i
  have upper : b.x.upper ++ b.s.upper = b.x.upper :=
    ext_get fun (i : Fin n) => get_append_castAdd (n := 0) b.x.upper b.s.upper i
  exact congrArg₂ Box.mk lower upper

/-- The bounds of a subproblem are those of the problem, as they are told. -/
theorem Penalty.View.bounds_eq {v : View ℝ ⟨n, 0, 0⟩} {b : Bounds ℝ ⟨n, 0, 0⟩} (box : v.box = b.x)
    (unmoved : b.relaxedFixed = 0) (factor : ℝ) :
    v.bounds.relax factor = (b.relax factor).told := by
  have slacks : b.s.told = ⟨#v[], #v[]⟩ := congrArg₂ Box.mk Vector.eq_empty Vector.eq_empty
  rw [Bounds.relax_told, View.bounds, Bounds.told, box, slacks, unmoved]

end Bounds

end SmoothOpt
