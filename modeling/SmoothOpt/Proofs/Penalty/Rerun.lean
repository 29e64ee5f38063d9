import SmoothOpt.Proofs.Barrier.Restart
import SmoothOpt.Proofs.Penalty.History
import SmoothOpt.Proofs.Penalty.Repeatable

/-!
Running the augmented Lagrangian method again.

A start writes everything a run reads but for the bound multipliers, and those are only returned. So
a second run with the same observer goes through the same states: its subproblems are the same and
are solved by engines that are new each time, and a start that has failed fails again over what it
has left. The two runs differ in the world and, until a subproblem of theirs has given some, in the
bound multipliers, where the second has those the first one returned.
-/
namespace SmoothOpt

open Scalar Linear Step

variable {α σ ω : Type} [Scalar α] {d : Dims}

section Inner

variable {p : Problem α σ d} (repeatable : p.Repeatable)

include repeatable

/-- The engines created for a repeatable problem at two times differ in the world only. -/
theorem Barrier.Engine.create_alike (settings : InteriorSettings α) (w w' : World α σ) :
    Matched (fun e e' _ _ => ∃ c exact u u', e = ⟨c, .initial settings exact u⟩ ∧
        e' = ⟨c, .initial settings exact u'⟩ ∧ c.problem = p)
      (fun f f' _ _ => f' = f) ((Barrier.Engine.create p settings).outcome w)
      ((Barrier.Engine.create p settings).outcome w') := by
  have same := Bounds.ofProblem_steady repeatable (.ofSettings settings) w.problem w'.problem
  rw [Barrier.Engine.create, outcome_ofOutcome, outcome_ofOutcome]
  cases (Dims.validate d : Except (ProblemFault α) Unit) with
  | error cause => exact .error rfl
  | ok =>
    dsimp only
    generalize (Bounds.ofProblem p (.ofSettings settings)).run w.problem = r at same ⊢
    generalize (Bounds.ofProblem p (.ofSettings settings)).run w'.problem = r' at same ⊢
    obtain ⟨r, n⟩ := r
    obtain ⟨r', n'⟩ := r'
    obtain rfl : r = r' := same.symm
    cases r with
    | error cause => exact .error rfl
    | ok bounds =>
      dsimp only
      cases Barrier.Engine.useExact p settings with
      | error cause => exact .error rfl
      | ok exact => exact .ok ⟨_, _, _, _, rfl, rfl, rfl⟩

/-- A new engine for a repeatable problem gives one result at all times. -/
theorem Barrier.Engine.run_initial [DenseSolver α] {c : Barrier.Setup α σ d}
    (same : c.problem = p) (settings : InteriorSettings α) (exact : Bool) (u u' : World α σ) :
    ((⟨c, .initial settings exact u'⟩ : Barrier.Engine α σ d).run Observer.silent ()).1 =
      ((⟨c, .initial settings exact u⟩ : Barrier.Engine α σ d).run Observer.silent ()).1 := by
  let e : Barrier.Engine α σ d := ⟨c, .initial settings exact u⟩
  let e' : Barrier.Engine α σ d := ⟨c, .initial settings exact u'⟩
  have start : e.opened.SameStart e'.opened := Barrier.Engine.opened_sameStart rfl (.refl _) rfl
  have opened : e.opened.SameResult e'.opened := by
    obtain ⟨w, opened⟩ := e.opened_eq
    obtain ⟨w', opened'⟩ := e'.opened_eq
    rw [opened, opened']
    intro status
    rfl
  have own : e.setup.problem.Repeatable := same ▸ repeatable
  have setup : e'.setup = e.setup := rfl
  have runs : e.SameRun e' Observer.silent () := .of_repeatable own setup start
    (fun _ _ _ => .inl opened) Observer.silent ()
  exact runs.result

end Inner

namespace Penalty

variable {c : Setup α σ d} {s t : State α σ d} {m : Vector α d.n × Vector α d.n}

/-- The state `t` of a second run is the state `s` of the first but for the world, and for the bound
multipliers where it has `m`. -/
def State.Paired (m : Vector α d.n × Vector α d.n) (s t : State α σ d) : Prop :=
  ∃ w y, t = { s with world := w, zl := y.1, zu := y.2 } ∧ (y = (s.zl, s.zu) ∨ y = m)

omit [Scalar α] in
theorem State.Paired.recordIteration (paired : s.Paired m t) (c : Setup α σ d) :
    (s.recordIteration c).Paired m (t.recordIteration c) := by
  obtain ⟨w, recorded⟩ := s.recordIteration_eq c
  obtain ⟨w', recorded'⟩ := t.recordIteration_eq c
  rw [recorded, recorded']
  obtain ⟨_, y, rfl, known⟩ := paired
  exact ⟨w', y, rfl, known⟩

theorem State.Paired.info_eq (paired : s.Paired m t) : t.info = s.info := by
  obtain ⟨w, y, rfl, -⟩ := paired
  rfl

/-- A finite point is taken with its multipliers, which then are those of both runs. -/
theorem State.Paired.takeInner (paired : s.Paired m t) (res : SolveResult α (boxed d)) :
    (s.takeInner res).Paired m (t.takeInner res) := by
  obtain ⟨w, y, rfl, known⟩ := paired
  by_cases success : res.status.isSuccess = true <;> by_cases finite : allFinite res.x.toList = true
  all_goals simp only [State.takeInner, success, finite, if_true, Bool.false_eq_true, if_false]
  · exact ⟨_, _, rfl, .inl rfl⟩
  · exact ⟨_, y, rfl, known⟩
  · exact ⟨_, _, rfl, .inl rfl⟩
  · exact ⟨_, y, rfl, known⟩

section Steps

variable (repeatable : c.problem.Repeatable)

include repeatable

theorem evaluateObjective_paired :
    Alike (State.Paired m) (evaluateObjective c) (evaluateObjective c)
      (fun _ _ s t => s.Paired m t) fun f f' s t => f' = f ∧ s.Paired m t := by
  rintro s _ ⟨w, y, rfl, known⟩
  rw [outcome_evaluateObjective, outcome_evaluateObjective]
  dsimp only
  rw [(repeatable.objective _ true).steady w.problem s.world.problem]
  split
  · exact .ok ⟨_, y, rfl, known⟩
  · exact .error ⟨rfl, _, y, rfl, known⟩

theorem evaluateErrors_paired :
    Alike (State.Paired m) (evaluateErrors c) (evaluateErrors c)
      (fun _ _ s t => s.Paired m t) fun f f' s t => f' = f ∧ s.Paired m t := by
  rintro s _ ⟨w, y, rfl, known⟩
  have same := residuals_steady repeatable s.view s.z s.world.problem w.problem
  rw [outcome_evaluateErrors, outcome_evaluateErrors]
  dsimp only
  generalize (s.view.residuals c.problem s.z).run s.world.problem = r at same ⊢
  generalize (s.view.residuals c.problem s.z).run w.problem = r' at same ⊢
  obtain ⟨r, n⟩ := r
  obtain ⟨r', n'⟩ := r'
  obtain rfl : r = r' := same.symm
  cases r with
  | none => exact .error ⟨rfl, _, y, rfl, known⟩
  | some measured =>
    dsimp only
    split
    · exact .ok ⟨_, y, rfl, known⟩
    · exact .error ⟨rfl, _, y, rfl, known⟩

variable [DenseSolver α]

/-- The subproblem gives the same result, and what was paired before stays paired. -/
theorem solveSubproblem_paired :
    Alike (State.Paired m) (solveSubproblem c) (solveSubproblem c)
      (fun status status' s t => status' = status ∧ s.Paired m t)
      fun f f' s t => f' = f ∧ s.Paired m t := by
  rintro s _ ⟨w, y, rfl, known⟩
  have inner := View.problem_repeatable repeatable s.view
  have created := Barrier.Engine.create_alike inner c.settings.inner s.world w
  rw [solveSubproblem, outcome_ofOutcome, outcome_ofOutcome]
  dsimp only
  generalize (Barrier.Engine.create (s.view.problem c.problem) c.settings.inner).outcome s.world =
    r at created ⊢
  generalize (Barrier.Engine.create (s.view.problem c.problem) c.settings.inner).outcome w =
    r' at created ⊢
  cases created with
  | error same => exact .error ⟨same, _, y, rfl, known⟩
  | ok engines =>
    obtain ⟨setup, exact, u, u', rfl, rfl, viewed⟩ := engines
    have same := Barrier.Engine.run_initial inner viewed c.settings.inner exact u u'
    dsimp only
    rw [same]
    refine .ok ⟨rfl, State.Paired.takeInner ?_ _⟩
    exact ⟨_, y, rfl, known⟩

/-- A major iteration goes the same way in both runs. -/
theorem major_paired :
    Alike (State.Paired m) (major c) (major c)
      (fun verdict verdict' s t => verdict' = verdict ∧ s.Paired m t)
      fun f f' s t => f' = f ∧ s.Paired m t := by
  unfold major
  refine .bind (solveSubproblem_paired repeatable) fun status status' => ?_
  intro s t ⟨same, paired⟩
  subst same
  refine Alike.bind (R := State.Paired m) (.modify (Q := fun _ _ => State.Paired m) ?_)
    (fun _ _ => .bind (evaluateObjective_paired repeatable) fun _ _ =>
      .bind (evaluateErrors_paired repeatable) fun _ _ => ?_) s t paired
  · rintro s _ ⟨w, y, rfl, known⟩
    exact ⟨w, y, rfl, known⟩
  · rintro s _ ⟨w, y, rfl, known⟩
    split
    · exact .ok ⟨rfl, w, y, rfl, known⟩
    · -- the check reads the errors and the count only
      have verdict : ({ s with world := w, zl := y.1, zu := y.2 } : State α σ d).check.1 =
          s.check.1 := rfl
      simp only [outcome_get_bind, outcome_set_bind, verdict]
      split
      · exact .ok ⟨rfl, w, y, rfl, known⟩
      · exact .ok ⟨rfl, w, y, rfl, known⟩

/-- Two courses from paired states go the same way and tell the same. -/
theorem Course.paired {obs : Observer α d ω} {left : Nat} {last : State α σ d} {o o' : ω}
    {reports : List (State α σ d)} {ending : Except (Failure α) Status}
    (course : Course c obs left s o reports ending last o') : ∀ {t}, s.Paired m t →
      ∃ reports' last', Course c obs left t o reports' ending last' o' ∧
        reports'.map State.info = reports.map State.info ∧ last.Paired m last' := by
  induction course with
  | spent s o =>
    intro t paired
    exact ⟨[], t, .spent t o, rfl, paired⟩
  | @stopped left s o o' answer =>
    intro t paired
    have told := (paired.recordIteration c).info_eq
    rw [← told] at answer
    exact ⟨_, _, .stopped answer, congrArg (fun i => [i]) told, paired.recordIteration c⟩
  | @failed left s u o o' f answer step =>
    intro t paired
    have told := (paired.recordIteration c).info_eq
    rw [← told] at answer
    obtain ⟨_, u', step', rfl, left⟩ :=
      (major_paired repeatable _ _ (paired.recordIteration c)).of_error step
    exact ⟨_, u', .failed answer step', congrArg (fun i => [i]) told, left⟩
  | @decided left s u o o' status answer step =>
    intro t paired
    have told := (paired.recordIteration c).info_eq
    rw [← told] at answer
    obtain ⟨_, u', step', rfl, left⟩ :=
      (major_paired repeatable _ _ (paired.recordIteration c)).of_ok step
    exact ⟨_, u', .decided answer step', congrArg (fun i => [i]) told, left⟩
  | @stepped left s u last o o' o'' reports ending answer step rest ih =>
    intro t paired
    have told := (paired.recordIteration c).info_eq
    rw [← told] at answer
    obtain ⟨_, u', step', rfl, left⟩ :=
      (major_paired repeatable _ _ (paired.recordIteration c)).of_ok step
    obtain ⟨reports', last', rest', told', left⟩ := ih left
    exact ⟨_, last', .stepped answer step' rest', congrArg₂ List.cons told told', left⟩

end Steps

section Starts

theorem evaluateErrors_keeps {r : Except (Failure α) Unit}
    (h : (evaluateErrors c).outcome s = (r, t)) :
    ∃ w p feas optim,
      t = { s with world := w, penalty := p, errFeas := feas, errOptim := optim } := by
  rw [outcome_evaluateErrors] at h
  split at h
  · cases h
    exact ⟨_, _, _, _, rfl⟩
  · split at h
    · cases h
      exact ⟨_, _, _, _, rfl⟩
    · cases h
      exact ⟨_, _, _, _, rfl⟩

variable (repeatable : c.problem.Repeatable) {s' : State α σ d}

include repeatable

/-- At one point two evaluations of the objective end alike and leave the same, if they succeed or
if the second finds what the first has left. -/
theorem evaluateObjective_repeats {r : Except (Failure α) Unit}
    (h : (evaluateObjective c).outcome s = (r, s')) (z : t.z = s.z)
    (old : r = .ok () ∨ t.obj = s'.obj) :
    ∃ w, (evaluateObjective c).outcome t = (r, { t with world := w, obj := s'.obj }) := by
  have settled := repeatable.objective (variablePart s.z) true
  simp only [outcome_evaluateObjective, Prod.mk.injEq] at h ⊢
  obtain ⟨verdict, rfl⟩ := h
  rw [z, settled.steady t.world.problem s.world.problem]
  have same : ((c.problem.objective (variablePart s.z) true).run s.world.problem).1.onto t.obj =
      ((c.problem.objective (variablePart s.z) true).run s.world.problem).1.onto s.obj := by
    obtain succeeded | left := old
    · rw [succeeded] at verdict
      split at verdict
      · rename_i good
        exact settled.whole _ (Bool.and_eq_true .. ▸ good).1 _ _
      · cases verdict
    · rw [left]
      exact Reply.onto_onto _ _
  rw [same]
  exact ⟨_, verdict, rfl⟩

/-- The same for the errors. -/
theorem evaluateErrors_repeats {r : Except (Failure α) Unit}
    (h : (evaluateErrors c).outcome s = (r, s')) (z : t.z = s.z) (view : t.view = s.view)
    (old : r = .ok () ∨
      t.penalty = s'.penalty ∧ t.errFeas = s'.errFeas ∧ t.errOptim = s'.errOptim) :
    ∃ w, (evaluateErrors c).outcome t = (r, { t with
      world := w, penalty := s'.penalty, errFeas := s'.errFeas, errOptim := s'.errOptim }) := by
  have same := residuals_steady repeatable s.view s.z s.world.problem t.world.problem
  rw [outcome_evaluateErrors] at h ⊢
  rw [z, view]
  generalize (s.view.residuals c.problem s.z).run s.world.problem = a at same h
  generalize (s.view.residuals c.problem s.z).run t.world.problem = a' at same ⊢
  obtain ⟨a, n⟩ := a
  obtain ⟨a', n'⟩ := a'
  obtain rfl : a = a' := same.symm
  cases a with
  | none =>
    obtain ⟨rfl, rfl⟩ := Prod.mk.inj h
    obtain succeeded | ⟨penalty, feas, optim⟩ := old
    · cases succeeded
    · rw [← penalty, ← feas, ← optim]
      exact ⟨_, rfl⟩
  | some measured =>
    dsimp only at h ⊢
    split at h
    · rename_i finite
      obtain ⟨rfl, rfl⟩ := Prod.mk.inj h
      rw [if_pos finite]
      exact ⟨_, rfl⟩
    · rename_i infinite
      obtain ⟨rfl, rfl⟩ := Prod.mk.inj h
      rw [if_neg infinite]
      obtain succeeded | ⟨-, feas, optim⟩ := old
      · cases succeeded
      · rw [← feas, ← optim]
        exact ⟨_, rfl⟩

/-- A start settles as it did before, if it succeeds or finds what it has left. -/
theorem settle_repeats {r : Except (Failure α) (Option Status)}
    (h : (settle c).outcome s = (r, s')) (z : t.z = s.z) (view : t.view = s.view)
    (iter : t.iter = s.iter)
    (old : (∃ verdict, r = .ok verdict) ∨ ∃ w, t = { s' with world := w }) :
    ∃ w, (settle c).outcome t = (r, { t with
      world := w, obj := s'.obj, penalty := s'.penalty, errFeas := s'.errFeas
      errOptim := s'.errOptim, termination := s'.termination }) := by
  cases r with
  | error f =>
    obtain ⟨_, ⟨⟩⟩ | ⟨w, rfl⟩ := old
    simp only [settle, outcome_bind_error, outcome_modify_bind, outcome_get_bind, outcome_set_bind,
      outcome_pure, Prod.mk.injEq, reduceCtorEq, false_and, and_false, exists_false,
      or_false] at h ⊢
    obtain objective | ⟨_, s₁, objective, errors⟩ := h
    · obtain ⟨w', again⟩ := evaluateObjective_repeats repeatable objective z (.inr rfl)
      exact ⟨w', .inl again⟩
    · obtain ⟨w', again⟩ := evaluateObjective_repeats repeatable objective z (.inl rfl)
      obtain ⟨w₁, obj, rfl, -⟩ := evaluateObjective_ok objective
      obtain ⟨w'', failed⟩ := evaluateErrors_repeats repeatable errors (t := { s' with
        world := w', obj := obj }) z view (.inr ⟨rfl, rfl, rfl⟩)
      obtain ⟨n, p, feas, optim, rfl⟩ := evaluateErrors_keeps errors
      exact ⟨w'', .inr ⟨(), _, again, failed⟩⟩
  | ok verdict =>
    simp only [settle, outcome_bind_ok, outcome_modify_bind, outcome_get_bind, outcome_set_bind,
      outcome_pure, Prod.mk.injEq, Except.ok.injEq] at h ⊢
    obtain ⟨_, s₁, objective, _, s₂, errors, rfl, rfl⟩ := h
    obtain ⟨w₁, again⟩ := evaluateObjective_repeats repeatable objective z (.inl rfl)
    obtain ⟨_, obj, rfl, -⟩ := evaluateObjective_ok objective
    obtain ⟨w₂, again'⟩ := evaluateErrors_repeats repeatable errors (t := { t with
      world := w₁, obj := obj }) z view (.inl rfl)
    obtain ⟨n, p, feas, optim, rfl⟩ := evaluateErrors_keeps errors
    -- the check reads the errors and the count, and the log is part of the world
    obtain ⟨u, recorded⟩ := State.recordFrom_eq { s with
      world := n, obj := obj, penalty := p, errFeas := feas, errOptim := optim
      termination := ((Termination.ofPenalty c.settings).check [feas, optim]
        s.iter).2.recordInitial [feas, optim] } c 3 (.penaltyStart obj feas optim)
    obtain ⟨u', recorded'⟩ := State.recordFrom_eq { t with
      world := w₂, obj := obj, penalty := p, errFeas := feas, errOptim := optim
      termination := ((Termination.ofPenalty c.settings).check [feas, optim]
        s.iter).2.recordInitial [feas, optim] } c 3 (.penaltyStart obj feas optim)
    refine ⟨u', (), _, again, (), _, again', ?_⟩
    simp only [State.check, iter, true_and] at recorded recorded' ⊢
    rw [recorded, recorded']

/-- A start goes as it did before, if it succeeds or finds what it has left. -/
theorem prepare_repeats {r : Except (Failure α) (Option Status)}
    (h : (prepare c).outcome s = (r, s')) (same : s.SameStart t)
    (old : (∃ verdict, r = .ok verdict) ∨ ∃ w, t = { s' with world := w }) :
    ∃ w, (prepare c).outcome t = (r, { s' with world := w, zl := t.zl, zu := t.zu }) := by
  have given := userStart_steady repeatable s.view s.z s.world.problem s.world.problem
  have given' := userStart_steady repeatable t.view t.z t.world.problem s.world.problem
  rw [outcome_prepare] at h ⊢
  dsimp only at h ⊢
  rw [given] at h
  rw [given']
  rcases answer : s.view.startOver s.z (c.problem.start.run s.world.problem).1
    (fun x => ((c.problem.inequalities x true).run s.world.problem).1) with ⟨_ | _, z⟩
  · rw [answer] at h
    obtain ⟨rfl, rfl⟩ := Prod.mk.inj h
    obtain ⟨_, ⟨⟩⟩ | ⟨w, rfl⟩ := old
    rw [startOver_again answer]
    exact ⟨_, rfl⟩
  · rw [answer] at h
    rw [startOver_anew answer same.box (repeatable.start.whole _)
      (fun x => (repeatable.inequalities x true).whole _)]
    dsimp only at h ⊢
    rw [if_pos rfl] at h ⊢
    generalize ({ t.world with problem := ((t.view.userStart c.problem t.z).run
      t.world.problem).2 } : World α σ) = n
    have view : ({ t with world := n }.placed c z).view = (s.placed c z).view := by
      simp only [State.placed, State.publishStart, State.withParameters, same.box]
    have left : (∃ verdict, r = .ok verdict) ∨
        ∃ w', { t with world := n }.placed c z = { s' with world := w' } := by
      refine old.imp_right ?_
      rintro ⟨w, rfl⟩
      obtain ⟨w, f, p, feas, optim, k, rfl⟩ := settle_keeps h
      exact ⟨n, rfl⟩
    obtain ⟨w, again⟩ := settle_repeats repeatable h (t := { t with world := n }.placed c z) rfl
      view same.iter left
    refine ⟨w, again.trans ?_⟩
    obtain ⟨w, f, p, feas, optim, k, rfl⟩ := settle_keeps h
    simp only [State.placed, State.publishStart, State.withParameters, same.box, same.status,
      same.iter, same.innerIters, same.innerStatuses, same.lastInner]

end Starts

section Runs

variable [DenseSolver α] {obs : Observer α d ω} {o : ω}

/-- A path is taken again from a state with the same counts, if the start succeeds or finds what it
has left. The bound multipliers are those it has left. -/
theorem Path.again (repeatable : c.problem.Repeatable) {reports : List (State α σ d)}
    {status : Status} {last : State α σ d} (path : Path c obs s o reports status last)
    (same : s.SameStart t) (multipliers : (t.zl, t.zu) = (last.zl, last.zu))
    (failed : ∀ f s', (prepare c).outcome s = (.error f, s') → ∃ w, t = { s' with world := w }) :
    ∃ reports' last', Path c obs t o reports' status last' ∧
      reports'.map State.info = reports.map State.info ∧ last.Paired (last.zl, last.zu) last' := by
  cases path with
  | @startFailed f last start =>
    obtain ⟨w, again⟩ := prepare_repeats repeatable start same (.inr (failed _ _ start))
    have status : (last.startStopped c f).1 =
        (({ last with world := w, zl := t.zl, zu := t.zu } : State α σ d).startStopped c f).1 := by
      cases f <;> rfl
    rw [status]
    exact ⟨[], _, .startFailed again, rfl, w, _, rfl, .inl multipliers⟩
  | startDecided start =>
    obtain ⟨w, again⟩ := prepare_repeats repeatable start same (.inl ⟨_, rfl⟩)
    exact ⟨[], _, .startDecided again, rfl, w, _, rfl, .inl multipliers⟩
  | @looped first last reports ending o' start course =>
    obtain ⟨w, again⟩ := prepare_repeats repeatable start same (.inl ⟨_, rfl⟩)
    have paired : first.Paired (last.zl, last.zu)
        { first with world := w, zl := t.zl, zu := t.zu } :=
      ⟨w, (t.zl, t.zu), rfl, .inr multipliers⟩
    obtain ⟨reports', last', course', told, left⟩ := course.paired repeatable paired
    exact ⟨reports', last', .looped again course', told, left⟩

namespace Engine

/-- Two runs that an observer cannot tell apart. -/
structure SameRun (e e' : Engine α σ d) (obs : Observer α d ω) (o : ω) : Prop where
  result : (e'.run obs o).1 = (e.run obs o).1
  memory : (e'.run obs o).2.2 = (e.run obs o).2.2
  told : ∃ reports status last reports' status' last', e.Follows obs o reports status last ∧
    e'.Follows obs o reports' status' last' ∧ reports'.map State.info = reports.map State.info

end Engine

omit [DenseSolver α] in
/-- An observer remembers what it is told. -/
theorem remembered_congr (obs : Observer α d ω) {reports reports' : List (State α σ d)}
    (same : reports'.map State.info = reports.map State.info) (o : ω) :
    remembered obs reports' o = remembered obs reports o := by
  have through (reports : List (State α σ d)) : remembered obs reports o =
      (reports.map State.info).foldl (fun o i => (obs.onIteration i o).2) o := by
    rw [List.foldl_map]
    rfl
  rw [through, through, same]

/-- The next run of an engine with the same observer tells it the same as the run before, however
that one ended. -/
theorem second_run_repeats {e : Engine α σ d} (repeatable : e.setup.problem.Repeatable)
    (obs : Observer α d ω) (o : ω) : e.SameRun (e.run obs o).2.1 obs o := by
  obtain ⟨reports, status, last, w, follows, left⟩ := e.run_leaves obs o
  obtain ⟨n, opened⟩ := e.opened_eq
  obtain ⟨n', opened'⟩ := (e.run obs o).2.1.opened_eq
  rw [left] at opened'
  have same : e.opened.SameStart (e.run obs o).2.1.opened := by
    have box := follows.path.box
    rw [opened] at box ⊢
    rw [opened']
    exact ⟨box, rfl, rfl, rfl, rfl, rfl⟩
  have failed : ∀ f s', (prepare e.setup).outcome e.opened = (.error f, s') →
      ∃ w, (e.run obs o).2.1.opened = { s' with world := w } := by
    intro f s' start
    have path : Path e.setup obs e.opened o [] _ s' := .startFailed start
    obtain ⟨-, -, rfl⟩ := path.unique follows.path
    have kept := prepare_keeps start
    rw [opened] at kept
    refine ⟨n', opened'.trans ?_⟩
    simp only [kept.status, kept.iter, kept.innerIters, kept.innerStatuses, kept.lastInner]
  obtain ⟨reports', last', path, told, paired⟩ :=
    follows.path.again repeatable same (by rw [opened']) failed
  have follows' : (e.run obs o).2.1.Follows obs o reports' status last' := .of_path path
  have result : ((e.run obs o).2.1.run obs o).1 = (e.run obs o).1 := by
    rw [follows.result, follows'.result]
    obtain ⟨w, y, rfl, known | known⟩ := paired
    · rw [known]
      rfl
    · rw [known]
      rfl
  refine ⟨result, ?_, _, _, _, _, _, _, follows, follows', told⟩
  rw [follows.observer, follows'.observer, result, remembered_congr obs told]

end Runs

open scoped Linear.Exact

theorem Infeasible.repeatable : Infeasible.problem.Repeatable where
  variableBounds := .of_pure _
  inequalityBounds := .of_pure _
  start := .of_written _ _
  objective _ _ := .of_written _ _
  gradient _ _ := .of_written _ _
  equalities _ _ := .of_written _ _
  inequalities _ _ := .of_written _ _
  equalityJacobian _ _ := .of_pure _
  inequalityJacobian _ _ := .of_pure _
  hessian _ _ _ _ _ := .of_pure _

/-- A run that its observer stops at the third report, once more. -/
theorem infeasible_second_run_repeats :
    (Infeasible.engine.run Infeasible.stopper ()).1.status = .userStopped ∧
      Infeasible.engine.SameRun (Infeasible.engine.run Infeasible.stopper ()).2.1
        Infeasible.stopper () := by
  obtain ⟨reports, status, last, follows⟩ := Infeasible.engine.run_follows Infeasible.stopper ()
  obtain ⟨rfl, -⟩ := Infeasible.follows_three follows
  refine ⟨?_, second_run_repeats Infeasible.repeatable Infeasible.stopper ()⟩
  rw [follows.result]
  rfl

end Penalty

end SmoothOpt
