import SmoothOpt.Proofs.Barrier.Coherence
import SmoothOpt.Proofs.Problem.Agreement

/-!
Two runs side by side.

The world, the evaluation of the last trial and an exact Hessian are written before they are read in
every pass of the main loop. Two states that differ in nothing else are twins, and an iteration of
two twins goes alike when their problems agree: both take the same step, or both fail with the same
status and the same result. So the courses of two twins tell their observers the same.
-/
namespace SmoothOpt

open Scalar Linear Step

/-- The same Hessian or approximation, or two exact ones: an exact one is evaluated before it is
used. -/
def Curvature.Like {α : Type} {d : Dims} (k k' : Curvature α d) : Prop :=
  k' = k ∨ (k.isExact = true ∧ k'.isExact = true)

theorem Curvature.Like.refl {α : Type} {d : Dims} (k : Curvature α d) : k.Like k := .inl rfl

/-- Refreshing two curvatures that are alike makes them equal, or fails on both. -/
theorem Curvature.refresh_alike {α σ : Type} [Scalar α] {d : Dims} {p q : Problem α σ d}
    (agrees : p.Agrees q) {x : Vector α d.n} {e : Evaluation α d} (answers : e.AnswersAt p x)
    (yc : Vector α d.mEq) (yd : Vector α d.mIneq) :
    Alike (fun t t' => t.1.Like t'.1) (refresh p x e yc yd) (refresh q x e yc yd)
      (fun _ _ t t' => t'.1 = t.1) fun f f' t t' => f' = f ∧ t.1.Like t'.1 := by
  rintro ⟨k, w⟩ ⟨k', w'⟩ like
  cases k with
  | exact hess =>
    cases k' with
    | quasiNewton => simp [Like, isExact] at like
    | exact hess' =>
      have same := agrees.hessian x yc yd ⟨e, answers⟩ w w'
      rw [outcome_refresh_exact, outcome_refresh_exact]
      dsimp only
      rw [same.ok]
      by_cases good : ((p.hessian x false 1 yc yd).run w).1.ok = true
      · rw [same.value good]
        split
        · exact .ok rfl
        · exact .error ⟨rfl, .inl rfl⟩
      · simp only [good, Bool.false_and, Bool.false_eq_true, if_false]
        exact .error ⟨rfl, .inr ⟨rfl, rfl⟩⟩
  | quasiNewton q last =>
    obtain rfl | ⟨impossible, -⟩ := like
    · exact .ok rfl
    · cases impossible

/-- Searches whose trials measure the same accept the same step. -/
theorem LineSearch.backtrackFrom_alike {α τ τ' : Type} [Scalar α] {l : LineSearch α}
    {filter : Filter α} {current : Measures α} {slope : α}
    {trial : α → Step (Failure α) τ (Measures α)} {trial' : α → Step (Failure α) τ' (Measures α)}
    {onReject : Rejection α → τ → τ} {onReject' : Rejection α → τ' → τ'} {S : τ → τ' → Prop}
    (measured : ∀ alpha, Alike (fun _ _ => True) (trial alpha) (trial' alpha)
      (fun m m' t t' => m' = m ∧ S t t') fun f f' _ _ => Barrier.statusOf f' = Barrier.statusOf f)
    (left : Nat) : ∀ (backtracks : Nat) (alpha : α), Alike (fun _ _ => True)
      (l.backtrackFrom filter current slope trial onReject left backtracks alpha)
      (l.backtrackFrom filter current slope trial' onReject' left backtracks alpha)
      (fun acc acc' t t' => acc' = acc ∧ S t t')
      fun f f' _ _ => Barrier.statusOf f' = Barrier.statusOf f := by
  induction left with
  | zero =>
    intro backtracks alpha
    exact .throw fun _ _ _ => rfl
  | succ left ih =>
    intro backtracks alpha
    unfold backtrackFrom
    refine .bind (measured alpha) fun m m' => ?_
    rintro t t' ⟨rfl, same⟩
    cases l.accept filter current m' alpha slope with
    | some kind => exact .ok ⟨rfl, same⟩
    | none =>
      dsimp only
      rw [outcome_modify_bind, outcome_modify_bind]
      split
      · exact .error rfl
      · exact ih _ _ _ _ trivial

namespace Barrier

variable {α σ ω : Type} {d : Dims}

def Setup.solving (c : Setup α σ d) (q : Problem α σ d) : Setup α σ d := { c with problem := q }

/-- Two states that differ at most in the world, the evaluation of the last trial and an exact
Hessian. -/
def State.Twin (s t : State α σ d) : Prop :=
  ∃ w k e, t = { s with world := w, curvature := k, trialEval := e } ∧ s.curvature.Like k

/-- Two states that stand for the same result, with whatever status. -/
def State.SameResult [Scalar α] (s t : State α σ d) : Prop :=
  ∀ status, { t with status := status }.result = { s with status := status }.result

namespace State.Twin

variable {c : Setup α σ d} {q : Problem α σ d} {s t : State α σ d}

/-- What is written to the two logs does not count. -/
theorem worlds (twin : s.Twin t) (w w' : World α σ) :
    State.Twin { s with world := w } { t with world := w' } := by
  obtain ⟨_, k, e, rfl, like⟩ := twin
  exact ⟨w', k, e, rfl, like⟩

variable [Scalar α]

theorem result (twin : s.Twin t) : s.SameResult t := by
  obtain ⟨w, k, e, rfl, -⟩ := twin
  intro status
  rfl

theorem recordFrom (twin : s.Twin t) (c c' : Setup α σ d) (verbosity verbosity' : Nat)
    (event event' : Event α) :
    (s.recordFrom c verbosity event).Twin (t.recordFrom c' verbosity' event') := by
  obtain ⟨w, recorded⟩ := s.recordFrom_eq c verbosity event
  obtain ⟨w', recorded'⟩ := t.recordFrom_eq c' verbosity' event'
  rw [recorded, recorded']
  exact twin.worlds w w'

theorem headed (twin : s.Twin t) : (s.headed c).Twin (t.headed (c.solving q)) := by
  obtain ⟨w, same⟩ := s.headed_eq c
  obtain ⟨w', same'⟩ := t.headed_eq (c.solving q)
  rw [same, same']
  exact twin.worlds w w'

theorem info (twin : s.Twin t) : t.info (c.solving q) = s.info c := by
  obtain ⟨w, k, e, rfl, -⟩ := twin
  rfl

theorem checked (twin : s.Twin t) :
    t.checked.1 = s.checked.1 ∧ s.checked.2.Twin t.checked.2 := by
  obtain ⟨w, k, e, rfl, like⟩ := twin
  exact ⟨rfl, w, k, e, rfl, like⟩

theorem decreaseBarrier (budget : Nat) : ∀ {s t : State α σ d}, s.Twin t →
    (s.decreaseBarrier c budget).Twin (t.decreaseBarrier (c.solving q) budget) := by
  induction budget with
  | zero =>
    intro s t twin
    exact twin
  | succ budget ih =>
    rintro s _ ⟨w, k, e, rfl, like⟩
    have twin : s.Twin { s with world := w, curvature := k, trialEval := e } := ⟨w, k, e, rfl, like⟩
    simp only [State.decreaseBarrier]
    have same : (c.solving q).schedule = c.schedule := rfl
    rw [same]
    split
    · split
      · exact twin
      · apply ih
        apply State.Twin.recordFrom
        exact ⟨w, k, e, rfl, like⟩
    · exact twin

theorem reported (twin : s.Twin t) : (s.reported c).Twin (t.reported (c.solving q)) := by
  have checked := twin.checked.2
  have budget :
      (c.solving q).schedule.budget t.checked.2.mu = c.schedule.budget s.checked.2.mu := by
    obtain ⟨w, k, e, rfl, -⟩ := twin
    rfl
  unfold State.reported State.updateBarrier
  rw [budget]
  exact checked.decreaseBarrier _

end State.Twin

variable [Scalar α] {c : Setup α σ d} {q : Problem α σ d} {s t : State α σ d}

/-- Two failures that end a run alike. -/
def Ended (f f' : Failure α) (s t : State α σ d) : Prop :=
  statusOf f' = statusOf f ∧ s.SameResult t

theorem State.Twin.ended (twin : s.Twin t) {f f' : Failure α} (same : statusOf f' = statusOf f) :
    Ended f f' s t := ⟨same, twin.result⟩

theorem refreshCurvature_alike (agrees : c.problem.Agrees q) (coherent : s.Coherent c)
    (twin : s.Twin t) :
    Matched (fun _ _ s' t' => s'.Twin t' ∧ t'.curvature = s'.curvature) Ended
      ((refreshCurvature c).outcome s) ((refreshCurvature (c.solving q)).outcome t) := by
  obtain ⟨w, k, e, rfl, like⟩ := twin
  unfold refreshCurvature
  rw [outcome_get_bind, outcome_get_bind]
  refine Matched.within (Curvature.refresh_alike agrees coherent.eval s.curr.yc s.curr.yd
    (s.curvature, s.world.problem) (k, w.problem) like) ?_ ?_
  · rintro _ _ ⟨k₁, w₁⟩ ⟨_, w₂⟩ rfl
    exact ⟨⟨_, _, _, rfl, .refl _⟩, rfl⟩
  · rintro _ _ ⟨k₁, w₁⟩ ⟨k₂, w₂⟩ ⟨rfl, like⟩
    exact State.Twin.ended ⟨_, _, _, rfl, like⟩ rfl

/-- An evaluation at the current point goes alike as the step itself does. -/
theorem evaluating_alike {x y : Step Quantity (Evaluation α d × σ) Unit}
    {w : World α σ} {k : Curvature α d} {e e' : Evaluation α d} (like : s.curvature.Like k)
    (h : Matched (fun _ _ u u' => u'.1 = u.1) (fun _ _ u u' => u'.1.f = u.1.f)
      (x.outcome (s.eval, s.world.problem)) (y.outcome (e', w.problem))) :
    Matched (fun _ _ s' t' => s'.Twin t') Ended ((evaluating x).outcome s)
      ((evaluating y).outcome
        { s with world := w, curvature := k, trialEval := e, eval := e' }) := by
  refine Matched.within h ?_ ?_
  · rintro _ _ ⟨e₁, w₁⟩ ⟨_, w₂⟩ rfl
    exact ⟨_, k, e, rfl, like⟩
  · rintro _ _ ⟨e₁, w₁⟩ ⟨e₂, w₂⟩ same
    refine ⟨rfl, fun status => ?_⟩
    simp only [State.result]
    rw [same]

/-- A trial point measures the same for two twins. -/
theorem measureTrial_alike (agrees : c.problem.Agrees q) (twin : s.Twin t) (dir : Direction α d)
    (alpha : α) :
    Alike (fun _ _ => True) (measureTrial c s dir alpha) (measureTrial (c.solving q) t dir alpha)
      (fun m m' u u' => m' = m ∧ u.1.SameValues u'.1) fun f f' _ _ => statusOf f' = statusOf f := by
  obtain ⟨w, k, e, rfl, -⟩ := twin
  rintro ⟨e₁, w₁⟩ ⟨e₂, w₂⟩ _
  unfold measureTrial
  refine Alike.bind (R := fun _ _ => True) (Q := fun _ _ u u' => u.1.SameValues u'.1) ?_ ?_ _ _
    trivial
  · rintro ⟨e₁, w₁⟩ ⟨e₂, w₂⟩ _
    refine Matched.within (agrees.values (s.curr.trial dir c.bounds alpha).x.point
      (e₁, w₁.problem) (e₂, w₂.problem) trivial) ?_ ?_
    · intro _ _ u u' same
      exact same
    · intro _ _ _ _ _
      rfl
  · rintro _ _ ⟨⟨_, _, _, _, _, _⟩, w₁⟩ ⟨⟨_, _, _, _, _, _⟩, w₂⟩ ⟨f, eq, ineq⟩
    simp only at f eq ineq
    subst f eq ineq
    exact .ok ⟨rfl, rfl, rfl, rfl⟩

theorem searchStep_alike (agrees : c.problem.Agrees q) (twin : s.Twin t) (dir : Direction α d)
    (alphaMax : α) :
    Alike (fun _ _ => True) (searchStep c s dir alphaMax) (searchStep (c.solving q) t dir alphaMax)
      (fun acc acc' u u' => acc' = acc ∧ u.1.SameValues u'.1)
      fun f f' _ _ => statusOf f' = statusOf f := by
  have measured := measureTrial_alike agrees twin dir
  obtain ⟨w, k, e, rfl, -⟩ := twin
  unfold searchStep
  dsimp only
  split
  · refine .bind (measured alphaMax) fun m m' => .pure ?_
    rintro u u' ⟨-, same⟩
    exact ⟨rfl, same⟩
  · exact LineSearch.backtrackFrom_alike measured _ _ _

/-- The line searches of two twins accept the same step, with the same values at its point. -/
theorem lineSearch_alike (agrees : c.problem.Agrees q) (twin : s.Twin t) (dir : Direction α d)
    (alphaMax : α) :
    Matched (fun r r' s' t' => r'.1 = r.1 ∧ r.2.SameValues r'.2 ∧ s'.Twin t') Ended
      ((lineSearch c dir alphaMax).outcome s)
      ((lineSearch (c.solving q) dir alphaMax).outcome t) := by
  have searched := searchStep_alike agrees twin dir alphaMax (s.trialEval, s.world)
    (t.trialEval, t.world) trivial
  unfold lineSearch
  rw [outcome_ofOutcome, outcome_ofOutcome]
  generalize (searchStep c s dir alphaMax).outcome (s.trialEval, s.world) = r at searched ⊢
  generalize (searchStep (c.solving q) t dir alphaMax).outcome (t.trialEval, t.world) = r'
    at searched ⊢
  obtain ⟨w, k, e, rfl, like⟩ := twin
  cases searched with
  | @ok acc _ u u' same =>
    obtain ⟨rfl, same⟩ := same
    exact .ok ⟨rfl, same, u'.2, k, u'.1, rfl, like⟩
  | @error f f' u u' same =>
    exact .error (State.Twin.ended ⟨u'.2, k, u'.1, rfl, like⟩ same)

variable [DenseSolver α]

/-- With one matrix the Newton systems of two twins are one. -/
theorem newtonStep_alike (twin : s.Twin t) (same : t.curvature = s.curvature) :
    Matched (fun sol sol' s' t' => sol' = sol ∧ s'.Twin t') Ended ((newtonStep c).outcome s)
      ((newtonStep (c.solving q)).outcome t) := by
  obtain ⟨w, k, e, rfl, like⟩ := twin
  obtain rfl : k = s.curvature := same
  let out := Newton.solve (.ofSettings c.settings) s.shifts (s.newtonData c)
  let record (r : Newton.Rejected α) : Event α := .inertiaRejected r.inertia r.deltaW
  let t : State α σ d := { s with world := w, trialEval := e }
  have ran : (newtonStep c).outcome s = (out.result.mapError Failure.newton,
      { out.rejected.foldl (fun s r => s.record (record r)) s with shifts := out.memory }) := rfl
  have ran' : (newtonStep (c.solving q)).outcome t = (out.result.mapError Failure.newton,
      { out.rejected.foldl (fun s r => s.record (record r)) t with shifts := out.memory }) := rfl
  obtain ⟨w₁, recorded⟩ := State.foldl_record_eq record out.rejected s
  obtain ⟨w₂, recorded'⟩ := State.foldl_record_eq record out.rejected t
  have left : State.Twin { s with world := w₁, shifts := out.memory }
      { t with world := w₂, shifts := out.memory } := ⟨w₂, _, e, rfl, .refl _⟩
  rw [ran, recorded]
  change Matched _ _ _ ((newtonStep (c.solving q)).outcome t)
  rw [ran', recorded']
  cases out.result with
  | ok sol => exact .ok ⟨rfl, left⟩
  | error fault => exact .error (left.ended rfl)

/-- Two twins search along the same direction. -/
theorem searchDirection_alike (agrees : c.problem.Agrees q) (coherent : s.Coherent c)
    (twin : s.Twin t) :
    Matched (fun dir dir' s' t' => dir' = dir ∧ s'.Twin t') Ended ((searchDirection c).outcome s)
      ((searchDirection (c.solving q)).outcome t) := by
  unfold searchDirection
  refine Alike.bind (R := fun u u' => u = s ∧ u' = t)
    (Q := fun _ _ s' t' => s'.Twin t' ∧ t'.curvature = s'.curvature) ?_ (fun _ _ => ?_) s t
    ⟨rfl, rfl⟩
  · rintro _ _ ⟨rfl, rfl⟩
    exact refreshCurvature_alike agrees coherent twin
  refine Alike.bind (Q := fun sol sol' s' t' => sol' = sol ∧ s'.Twin t') ?_ fun sol sol' => ?_
  · rintro s₁ t₁ ⟨twin, same⟩
    exact newtonStep_alike twin same
  rintro s₁ t₁ ⟨rfl, twin⟩
  -- the record of a shift changes the log only
  have directions : ∀ s₂ t₂ : State α σ d, s₂.Twin t₂ →
      Matched (fun dir dir' s' t' => dir' = dir ∧ s'.Twin t') (Ended (α := α))
        ((get >>= fun s => pure (Direction.ofNewton sol' s.curr c.bounds s.mu) :
          Run α σ d (Direction α d)).outcome s₂)
        ((get >>= fun s => pure (Direction.ofNewton sol' s.curr c.bounds s.mu) :
          Run α σ d (Direction α d)).outcome t₂) := by
    rintro s₂ _ ⟨w, k, e, rfl, like⟩
    rw [outcome_get_bind, outcome_get_bind]
    exact .ok ⟨rfl, w, k, e, rfl, like⟩
  split
  · rw [outcome_modify_bind, outcome_modify_bind]
    exact directions _ _ (twin.recordFrom c (c.solving q) 3 3 _ _)
  · exact directions _ _ twin

/-- Completing an iteration keeps two twins twins. -/
theorem State.Twin.complete (twin : s.Twin t) (dir : Direction α d) (acc : Accepted α)
    (alphaDual : α) :
    (s.complete c dir acc alphaDual).Twin (t.complete (c.solving q) dir acc alphaDual) := by
  obtain ⟨w, k, e, rfl, like⟩ := twin
  -- all that follows the refreshed multipliers
  let settle (s : State α σ d) (refreshed : Iterate α d × Bool) : State α σ d :=
    let s := if refreshed.2 then s.record .estimateFailed else s
    let it := refreshed.1.clip c.bounds s.mu c.settings.kappaSigma
    let s := s.completed c s.world it acc.alpha alphaDual
    s.recordFrom c 2 (.interiorIteration s.iter s.eval.f s.resid.nlpFeas s.resid.nlpOptim s.mu
      s.alphaDual s.alphaPrimal acc.backtracks)
  have unfolded (s : State α σ d) : s.complete c dir acc alphaDual = settle s
      (s.curr.refreshMultipliers c.settings.multiplierUpdate s.eval c.bounds dir acc.alpha) := rfl
  change (s.complete c dir acc alphaDual).Twin
    (State.complete { s with world := w, curvature := k, trialEval := e } c dir acc alphaDual)
  rw [unfolded, unfolded]
  generalize s.curr.refreshMultipliers c.settings.multiplierUpdate s.eval c.bounds dir acc.alpha =
    refreshed
  apply State.Twin.recordFrom
  obtain ⟨it, _ | _⟩ := refreshed
  · exact ⟨_, k, e, rfl, like⟩
  · exact ⟨_, k, e, rfl, like⟩

/-- Once they have accepted a step, two twins evaluate the derivatives at its point and complete the
iteration alike. -/
theorem arrive_alike (agrees : c.problem.Agrees q) (twin : s.Twin t) (dir : Direction α d)
    (acc : Accepted α) {e e' : Evaluation α d} (alphaDual : α)
    (values : e.ValuesAt c.problem (s.curr.trial dir c.bounds acc.alpha).x.point)
    (same : e.SameValues e') :
    Matched (fun _ _ s' t' => s'.Twin t') Ended
      ((do
        modify (State.moveTo · c dir acc e alphaDual)
        let s ← get
        evaluating (Evaluation.derivs c.problem s.curr.x.point)
        modify (State.complete · c dir acc alphaDual) : Run α σ d Unit).outcome s)
      ((do
        modify (State.moveTo · (c.solving q) dir acc e' alphaDual)
        let s ← get
        evaluating (Evaluation.derivs q s.curr.x.point)
        modify (State.complete · (c.solving q) dir acc alphaDual) : Run α σ d Unit).outcome t) := by
  obtain ⟨w, k, e₁, rfl, like⟩ := twin
  rw [outcome_modify_bind, outcome_modify_bind, outcome_get_bind, outcome_get_bind]
  refine Alike.bind (Q := fun _ _ s' t' => s'.Twin t') (R := fun u u' => u = _ ∧ u' = _) ?_
    (fun _ _ => .modify fun _ _ twin => twin.complete dir acc alphaDual) _ _ ⟨rfl, rfl⟩
  rintro _ _ ⟨rfl, rfl⟩
  have derivatives := agrees.derivatives _ ⟨e, values⟩ (e, s.world.problem) (e', w.problem) same
  refine evaluating_alike (s := s.moveTo c dir acc e alphaDual) like (derivatives.weaken ?_ ?_)
  · intro _ _ u u' _ _ same
    exact same
  · intro _ _ u u' _ _ same
    exact same.f

/-- An iteration of two twins goes alike. -/
theorem advance_alike (agrees : c.problem.Agrees q) (coherent : s.Coherent c) (twin : s.Twin t) :
    Matched (fun _ _ s' t' => s'.Twin t') Ended ((advance c).outcome s)
      ((advance (c.solving q)).outcome t) := by
  unfold advance
  rw [outcome_bind, outcome_bind]
  rcases searched : (searchDirection c).outcome s with ⟨f | dir, s₁⟩
  · obtain ⟨f', t₁, searched', ended⟩ :=
      (searchDirection_alike agrees coherent twin).of_error searched
    rw [searched']
    exact .error ended
  obtain ⟨dir', t₁, searched', same, twin₁⟩ :=
    (searchDirection_alike agrees coherent twin).of_ok searched
  rw [searched', same]
  dsimp only
  rw [outcome_get_bind, outcome_get_bind]
  have lengths : t₁.curr.maxPrimalStep dir (c.solving q).bounds t₁.tau =
        s₁.curr.maxPrimalStep dir c.bounds s₁.tau ∧
      t₁.curr.maxDualStep dir (c.solving q).bounds t₁.tau =
        s₁.curr.maxDualStep dir c.bounds s₁.tau := by
    obtain ⟨w, k, e, rfl, -⟩ := twin₁
    exact ⟨rfl, rfl⟩
  rw [lengths.1, lengths.2, outcome_bind, outcome_bind]
  generalize s₁.curr.maxPrimalStep dir c.bounds s₁.tau = alphaMax
  generalize s₁.curr.maxDualStep dir c.bounds s₁.tau = alphaDual
  rcases found : (lineSearch c dir alphaMax).outcome s₁ with ⟨f | ⟨acc, e⟩, s₂⟩
  · obtain ⟨f', t₂, found', ended⟩ := (lineSearch_alike agrees twin₁ dir alphaMax).of_error found
    rw [found']
    exact .error ended
  obtain ⟨⟨acc', e'⟩, t₂, found', same, values', twin₂⟩ :=
    (lineSearch_alike agrees twin₁ dir alphaMax).of_ok found
  obtain rfl : acc' = acc := same
  obtain ⟨accepted, w, rfl⟩ := lineSearch_ok found
  rw [found']
  exact arrive_alike agrees twin₂ dir acc' alphaDual accepted.values values'

/-- The courses of two twins tell the observer the same and end alike. -/
theorem Course.twin (agrees : c.problem.Agrees q) {obs : Observer α d ω} {left : Nat}
    {s last : State α σ d} {o o' : ω} {reports : List (State α σ d)}
    {ending : Except (Failure α) Status} (course : Course c obs left s o reports ending last o') :
    ∀ {t : State α σ d}, s.Coherent c → s.Twin t → ∃ reports' ending' last',
      Course (c.solving q) obs left t o reports' ending' last' o' ∧
      reports'.map (·.info (c.solving q)) = reports.map (·.info c) ∧
      endingStatus ending' = endingStatus ending ∧ last.SameResult last' := by
  induction course with
  | spent s o =>
    intro t _ twin
    exact ⟨[], _, t, .spent t o, rfl, rfl, twin.result⟩
  | decided verdict =>
    intro t _ twin
    obtain ⟨same, checked⟩ := twin.checked
    exact ⟨[], _, _, .decided (same.trans verdict), rfl, rfl, checked.result⟩
  | stopped undecided answer =>
    intro t _ twin
    have reported := twin.reported (c := c) (q := q)
    refine ⟨_, _, _, .stopped (twin.checked.1.trans undecided) ?_, ?_, rfl, reported.result⟩
    · rw [reported.info]
      exact answer
    · simp only [List.map_cons, List.map_nil, reported.info]
  | failed undecided answer step =>
    intro t coherent twin
    have reported := twin.reported (c := c) (q := q)
    obtain ⟨f', t', step', ended⟩ := (advance_alike agrees coherent.reported reported).of_error step
    refine ⟨_, _, _, .failed (twin.checked.1.trans undecided) ?_ step', ?_, ended.1, ended.2⟩
    · rw [reported.info]
      exact answer
    · simp only [List.map_cons, List.map_nil, reported.info]
  | stepped undecided answer step rest ih =>
    intro t coherent twin
    have reported := twin.reported (c := c) (q := q)
    obtain ⟨_, t', step', next⟩ := (advance_alike agrees coherent.reported reported).of_ok step
    obtain ⟨reports', ending', last', course', told, ended⟩ :=
      ih (coherent.reported.of_advance step) next
    refine ⟨_, ending', last', .stepped (twin.checked.1.trans undecided) ?_ step' course', ?_,
      ended⟩
    · rw [reported.info]
      exact answer
    · simp only [List.map_cons, reported.info, told]

end Barrier

end SmoothOpt
