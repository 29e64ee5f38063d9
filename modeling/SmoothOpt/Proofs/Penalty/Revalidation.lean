import SmoothOpt.Proofs.Barrier.Protocol
import SmoothOpt.Proofs.Linear.Lift
import SmoothOpt.Proofs.Penalty.Multipliers
import SmoothOpt.Proofs.Penalty.Transparency
import SmoothOpt.Proofs.Problem.Preparation

/-!
Bounds are validated twice: once for the outer loop, and again for every subproblem.

The second validation sees what the first one left: values that are real numbers where a bound is
present, infinities where none is, and pairs that were moved apart where they nearly coincided. It
finds no fault in them. With a point that stays finite along the loop, every subproblem has an
engine and a start, so a run ends for want of a start only where the user gives none.
-/
namespace SmoothOpt

open Scalar Linear

section Pair

variable {rule : Bounds.FixedRule Extended} {lo hi : Extended}

/-- A pair of bounds as validation leaves it: present ones are real numbers, they are not crossed,
and they do not nearly coincide if that is an error. -/
structure Bounds.FixedRule.Settled (rule : Bounds.FixedRule Extended) (lo hi : Bound Extended) :
    Prop where
  lower : lo.present = true → isFinite lo.value = true
  upper : hi.present = true → isFinite hi.value = true
  uncrossed : lo.present = true → hi.present = true → ¬hi.value < lo.value
  apart : rule.handling = .error → lo.present = true → hi.present = true →
    rule.coincide lo.value hi.value = false

/-- A raw pair in which validation finds no fault. -/
structure Bounds.FixedRule.Faultless (rule : Bounds.FixedRule Extended) (lo hi : Extended) :
    Prop where
  uncrossed : ¬hi < lo
  apart : rule.handling = .error → rule.coincide lo hi = false

namespace Bounds

theorem FixedRule.Faultless.of_variable {i : Nat} (h : variableFault rule i lo hi = none) :
    rule.Faultless lo hi := by
  obtain ⟨-, -, uncrossed, apart⟩ := variableFault_eq_none_iff.mp h
  exact ⟨uncrossed, apart⟩

/-- Moving a pair apart does not cross it. -/
theorem FixedRule.settle_uncrossed (perturb : 0 < rule.perturb)
    (faultless : rule.Faultless lo hi) : ¬(rule.settle lo hi).2 < (rule.settle lo hi).1 := by
  by_cases near : rule.NearEqual lo hi
  · have ordered : lo ≤ hi := by
      have uncrossed := faultless.uncrossed
      obtain ⟨l, u, rfl, rfl, -⟩ := near
      rw [Extended.finite_lt, not_lt] at uncrossed
      exact uncrossed
    exact Extended.not_lt_of_lt (FixedRule.settle_strict_of_nearEqual perturb near ordered)
  · rw [FixedRule.settle_of_not_nearEqual near]
    exact faultless.uncrossed

/-- Settling a pair without a fault leaves it as validation promises. -/
theorem FixedRule.Faultless.settled (faultless : rule.Faultless lo hi)
    (perturb : 0 < rule.perturb) :
    rule.Settled (.of (rule.settle lo hi).1) (.of (rule.settle lo hi).2) where
  lower := isFinite_of_isFiniteBound
  upper := isFinite_of_isFiniteBound
  uncrossed _ _ := settle_uncrossed perturb faultless
  apart error _ _ := by
    have apart := faultless.apart error
    have near : ¬rule.NearEqual lo hi := by
      rw [← coincide_iff, apart]
      exact Bool.false_ne_true
    rw [settle_of_not_nearEqual near]
    exact apart

/-- Told once more, a settled pair has no fault. -/
theorem FixedRule.Settled.faultless_told {lo hi : Bound Extended} (settled : rule.Settled lo hi)
    (i : Nat) :
    variableFault rule i (lo.told (-infinity)).value (hi.told infinity).value = none := by
  have unbounded (p : Bool) : isFiniteBound (.infinite p : Extended) = false := rfl
  have lower : isUndefined (lo.told (-infinity)).value = false := by
    obtain ⟨low, _ | _⟩ := lo
    · exact Extended.isUndefined_infinite false
    · obtain ⟨l, rfl⟩ := Extended.exists_of_isFinite (settled.lower rfl)
      exact Extended.isUndefined_finite l
  have upper : isUndefined (hi.told infinity).value = false := by
    obtain ⟨high, _ | _⟩ := hi
    · exact Extended.isUndefined_infinite true
    · obtain ⟨u, rfl⟩ := Extended.exists_of_isFinite (settled.upper rfl)
      exact Extended.isUndefined_finite u
  refine variableFault_eq_none_iff.mpr ⟨lower, upper, ?_, fun error => ?_⟩
  · obtain ⟨low, _ | _⟩ := lo <;> obtain ⟨high, _ | _⟩ := hi
    · nofun
    · obtain ⟨u, rfl⟩ := Extended.exists_of_isFinite (settled.upper rfl)
      nofun
    · obtain ⟨l, rfl⟩ := Extended.exists_of_isFinite (settled.lower rfl)
      nofun
    · exact settled.uncrossed rfl rfl
  · -- an infinity does not coincide with anything
    obtain ⟨low, _ | _⟩ := lo <;> obtain ⟨high, _ | _⟩ := hi
    · rfl
    · rfl
    · simp only [coincide, Bound.told, infinity, Bool.false_eq_true, if_false, unbounded,
        Bool.and_false, Bool.false_and]
    · exact settled.apart error rfl rfl

end Bounds

end Pair

/-- Every pair of a box is as validation leaves it. -/
def Box.Settled {n : Nat} (rule : Bounds.FixedRule Extended) (b : Box Extended n) : Prop :=
  ∀ i, rule.Settled (b.lower.get i) (b.upper.get i)

section Boxes

variable {n : Nat} {d : Dims} {rule : Bounds.FixedRule Extended}

theorem Bounds.settledBox_settled (perturb : 0 < rule.perturb) {lo hi : Vector Extended n}
    (faultless : ∀ i, rule.Faultless (lo.get i) (hi.get i)) :
    (settledBox rule lo hi).Settled rule := by
  intro i
  simp only [settledBox, get_zipWith]
  exact (faultless i).settled perturb

/-- The bounds of a view that was created are settled. -/
theorem Penalty.View.ofBounds_settled {σ : Type} {p : Problem Extended σ d} {b : Bounds Extended d}
    {w w' : σ} (perturb : 0 < rule.perturb)
    (queried : (Bounds.ofProblem p rule).run w = (.ok b, w')) :
    (ofBounds b).box.Settled rule := by
  obtain ⟨faultless, inequalities, rfl⟩ := Bounds.ofRaw_ok_iff.mp (Bounds.ofProblem_ok queried)
  have first := Bounds.settledBox_settled perturb fun i => .of_variable (faultless i)
  have second := Bounds.settledBox_settled perturb fun j =>
    .of_variable (Bounds.inequalityFault_eq_none_iff.mp (inequalities j)).1
  intro a
  refine Fin.addCases (fun i => ?_) (fun j => ?_) a
  · simp only [ofBounds, get_append_castAdd]
    exact first i
  · simp only [ofBounds, get_append_natAdd]
    exact second j

/-- A subproblem with settled bounds passes validation. -/
theorem Penalty.View.queried_again {σ : Type} {v : View Extended d} (settled : v.box.Settled rule)
    (p : Problem Extended σ d) (w : σ) :
    ∃ b, (Bounds.ofProblem (v.problem p) rule).run w = (.ok b, w) := by
  have faultless : Bounds.firstFault (Bounds.variableFault rule)
      (v.box.told.lower.map (·.value)) (v.box.told.upper.map (·.value)) = none := by
    rw [Bounds.firstFault_eq_none_iff]
    intro i
    simp only [Box.told, Vector.get_map]
    exact (settled i).faultless_told i
  rw [v.run_ofProblem p rule w, Bounds.ofRaw, faultless]
  simp only [Bounds.firstFault, List.finRange_zero, List.findSome?_nil]
  exact ⟨_, rfl⟩

end Boxes

namespace Penalty

section Start

variable {α σ : Type} [Scalar α] {d : Dims}

/-- The user gives no starting point or no inequality bodies there, or some of it is not finite.
What a callback leaves unwritten is read off `z`. -/
def StartUnusable (p : Problem α σ d) (z : Vector α (d.n + d.mIneq)) (w : σ) : Prop :=
  let given := p.start.run w
  let x := given.1.onto (variablePart z)
  let body := (p.inequalities x true).run given.2
  given.1.ok = false ∨ allFinite x.toList = false ∨
    body.1.ok = false ∨ allFinite (body.1.onto (slackPart z)).toList = false

/-- A start is refused exactly where it is unusable. -/
theorem View.userStart_refused_iff (v : View α d) (p : Problem α σ d)
    (z : Vector α (d.n + d.mIneq)) (w : σ) :
    ((v.userStart p z).run w).1.1 = false ↔ StartUnusable p z w := by
  unfold userStart StartUnusable
  rw [run_bind]
  dsimp only
  split
  · rename_i refused
    rw [Bool.or_eq_true, Bool.not_eq_true', Bool.not_eq_true'] at refused
    exact iff_of_true rfl (or_assoc.mp (.inl refused))
  · rename_i given
    rw [Bool.not_eq_true, Bool.or_eq_false_iff, Bool.not_eq_false', Bool.not_eq_false'] at given
    rw [run_bind]
    simp only [given.1, given.2, Bool.true_eq_false, false_or]
    split
    · rename_i refused
      rw [Bool.or_eq_true, Bool.not_eq_true', Bool.not_eq_true'] at refused
      exact iff_of_true rfl refused
    · rename_i told
      rw [Bool.not_eq_true, Bool.or_eq_false_iff, Bool.not_eq_false', Bool.not_eq_false'] at told
      refine iff_of_false nofun ?_
      simp [told]

end Start

section Loop

variable {σ ω : Type} {d : Dims} {rule : Bounds.FixedRule Extended}

theorem isFinite_clampTo {lo hi : Bound Extended} (settled : rule.Settled lo hi) {v : Extended}
    (finite : isFinite v = true) : isFinite (clampTo lo hi v) = true := by
  obtain ⟨r, rfl⟩ := Extended.exists_of_isFinite finite
  obtain ⟨low, _ | _⟩ := lo <;> obtain ⟨high, _ | _⟩ := hi
  · rfl
  · obtain ⟨u, rfl⟩ := Extended.exists_of_isFinite (settled.upper rfl)
    simp [clampTo]
  · obtain ⟨l, rfl⟩ := Extended.exists_of_isFinite (settled.lower rfl)
    simp [clampTo]
  · obtain ⟨l, rfl⟩ := Extended.exists_of_isFinite (settled.lower rfl)
    obtain ⟨u, rfl⟩ := Extended.exists_of_isFinite (settled.upper rfl)
    simp [clampTo]

/-- A usable start is a finite point. -/
theorem View.userStart_finite {v : View Extended d} (settled : v.box.Settled rule)
    {p : Problem Extended σ d} {z : Vector Extended (d.n + d.mIneq)} {w : σ}
    (given : ((v.userStart p z).run w).1.1 = true) :
    allFinite ((v.userStart p z).run w).1.2.toList = true := by
  unfold userStart at given ⊢
  rw [run_bind] at given ⊢
  dsimp only at given ⊢
  split at given
  · cases given
  rename_i usable
  rw [if_neg usable]
  rw [run_bind] at given ⊢
  split at given
  · cases given
  rename_i told
  rw [if_neg told]
  rw [Bool.not_eq_true, Bool.or_eq_false_iff, Bool.not_eq_false', Bool.not_eq_false'] at usable told
  rw [allFinite_toList_iff]
  intro a
  refine Fin.addCases (fun i => ?_) (fun j => ?_) a
  · change isFinite ((_ ++ _ : Vector Extended _).get _) = true
    rw [get_append_castAdd]
    exact (allFinite_toList_iff _).mp usable.2 i
  · change isFinite ((_ ++ _ : Vector Extended _).get _) = true
    rw [get_append_natAdd, Vector.get_ofFn, get_lastPart, get_lastPart]
    exact isFinite_clampTo (settled _) ((allFinite_toList_iff _).mp told.2 j)

/-- The point is finite, the next subproblem starts from it, and the bounds are settled. -/
structure State.Sound (rule : Bounds.FixedRule Extended) (s : State Extended σ d) : Prop where
  point : allFinite s.z.toList = true
  start : s.view.start = s.z
  box : s.view.box.Settled rule

variable {c : Setup Extended σ d} {s t : State Extended σ d}

/-- A start that is not refused places a finite point, whatever becomes of it afterwards. -/
theorem prepare_sound {r : Except (Failure Extended) (Option Status)}
    (settled : s.view.box.Settled rule)
    (usable : ¬StartUnusable c.problem s.z s.world.problem)
    (h : (prepare c).outcome s = (r, t)) : t.Sound rule := by
  have given : ((s.view.userStart c.problem s.z).run s.world.problem).1.1 = true := by
    rwa [← s.view.userStart_refused_iff, Bool.not_eq_false] at usable
  rw [outcome_prepare] at h
  dsimp only at h
  rw [if_pos given] at h
  obtain ⟨_, _, _, _, _, _, rfl⟩ := settle_keeps h
  exact ⟨View.userStart_finite settled given, rfl, settled⟩

/-- An unusable start is refused. -/
theorem prepare_refused (unusable : StartUnusable c.problem s.z s.world.problem) :
    ∃ t, (prepare c).outcome s = (.error (.invalidProblem .startFailed), t) := by
  rw [← s.view.userStart_refused_iff] at unusable
  rw [outcome_prepare]
  dsimp only
  rw [unusable, if_neg Bool.false_ne_true]
  exact ⟨_, rfl⟩

/-- What follows a usable start fails in an evaluation only. -/
theorem settle_failure {f : Failure Extended} (h : (settle c).outcome s = (.error f, t)) :
    ∃ q, f = .evaluation q := by
  simp only [settle, Step.outcome_bind_error, Step.outcome_modify_bind, Step.outcome_get_bind,
    Step.outcome_set_bind, Step.outcome_pure, Prod.mk.injEq, reduceCtorEq, false_and, and_false,
    exists_false, or_false] at h
  obtain objective | ⟨_, s₁, -, errors⟩ := h
  · rw [outcome_evaluateObjective, Prod.mk.injEq] at objective
    obtain ⟨verdict, -⟩ := objective
    split at verdict
    · cases verdict
    · cases verdict
      exact ⟨_, rfl⟩
  · rw [outcome_evaluateErrors] at errors
    split at errors
    · cases errors
      exact ⟨_, rfl⟩
    · split at errors
      · cases errors
      · cases errors
        exact ⟨_, rfl⟩

/-- The sizes are valid, and there is a Hessian if one is wanted. -/
structure Setup.Solvable (c : Setup Extended σ d) : Prop where
  nonempty : d.n ≠ 0
  hessian : c.settings.inner.hessian = .exact → c.problem.providesHessian = true

theorem State.Sound.recordIteration (sound : s.Sound rule) (c : Setup Extended σ d) :
    (s.recordIteration c).Sound rule := by
  obtain ⟨w, recorded⟩ := s.recordIteration_eq c
  rw [recorded]
  exact ⟨sound.point, sound.start, sound.box⟩

variable [DenseSolver Extended]

/-- A sound state has a subproblem with an engine, whose run does not want for a start. -/
theorem State.Sound.solvable (sound : s.Sound (.ofSettings c.settings.inner))
    (able : c.Solvable) : ∃ engine w,
      (Barrier.Engine.create (s.view.problem c.problem) c.settings.inner).outcome s.world =
        (.ok engine, w) ∧ (engine.run Observer.silent ()).1.status ≠ .incompleteInit := by
  have valid : (Dims.validate (boxed d) : Except (ProblemFault Extended) Unit) = .ok () := by
    simp [Dims.validate, able.nonempty]
  obtain ⟨b, queried⟩ := View.queried_again sound.box c.problem s.world.problem
  obtain ⟨exact, chosen⟩ : ∃ exact,
      Barrier.Engine.useExact (s.view.problem c.problem) c.settings.inner = .ok exact := by
    unfold Barrier.Engine.useExact
    split
    · exact ⟨_, rfl⟩
    · exact ⟨_, rfl⟩
    · rename_i wanted
      exact ⟨true, if_pos (able.hessian wanted)⟩
  obtain ⟨w, created⟩ := Barrier.Engine.create_of_bounds valid queried chosen
  refine ⟨_, w, created, fun status => ?_⟩
  obtain refused | infinite := Barrier.Engine.start_of_incompleteInit status
  · cases refused
  · have told : allFinite s.view.start.toList = false := infinite
    rw [sound.start, sound.point] at told
    cases told

/-- So it has a result of its subproblem. -/
theorem State.Sound.innerResult (sound : s.Sound (.ofSettings c.settings.inner))
    (able : c.Solvable) :
    ∃ res, innerResult c s = some res ∧ res.status ≠ .incompleteInit := by
  obtain ⟨engine, w, created, started⟩ := sound.solvable able
  refine ⟨_, ?_, started⟩
  rw [Penalty.innerResult, created]

/-- Taking over a result keeps the point finite. -/
theorem Took.finite {res : SolveResult Extended (boxed d)} (took : Took c s res t)
    (sound : s.Sound rule) : allFinite t.z.toList = true := by
  rw [took.z]
  split
  · assumption
  · exact sound.point

variable {obs : Observer Extended d ω} {left : Nat} {o o' : ω} {last : State Extended σ d}
  {reports : List (State Extended σ d)} {ending : Except (Failure Extended) Status}

/-- Major iterations from a sound state report sound states only. They leave a finite point and do
not end for want of a start. -/
theorem Course.sound (able : c.Solvable) (course : Course c obs left s o reports ending last o') :
    s.Sound (.ofSettings c.settings.inner) →
      (∀ r ∈ reports, r.Sound (.ofSettings c.settings.inner)) ∧
        allFinite last.z.toList = true ∧ Barrier.endingStatus ending ≠ .incompleteInit := by
  induction course with
  | spent s o =>
    intro sound
    exact ⟨List.forall_mem_nil _, sound.point, by decide⟩
  | stopped answer =>
    intro sound
    have reported := sound.recordIteration c
    exact ⟨List.forall_mem_singleton.mpr reported, reported.point, by decide⟩
  | @failed left s t o o' f answer step =>
    intro sound
    have reported := sound.recordIteration c
    obtain ⟨res, found, -⟩ := reported.innerResult able
    refine ⟨List.forall_mem_singleton.mpr reported, ?_, ?_⟩
    · obtain ⟨missing, -⟩ | ⟨res, took⟩ := major_error step
      · rw [found] at missing
        cases missing
      · exact took.finite reported
    · obtain evaluation | ⟨-, missing⟩ := major_failure step
      · rw [Barrier.endingStatus, evaluation]
        decide
      · rw [found] at missing
        cases missing
  | @decided left s t o o' status answer step =>
    intro sound
    have reported := sound.recordIteration c
    obtain ⟨⟨res, took⟩, -⟩ := major_decided step
    refine ⟨List.forall_mem_singleton.mpr reported, took.finite reported, ?_⟩
    obtain ⟨res, u, -, -, ⟨failed, -⟩ | ⟨verdict, -⟩⟩ := major_ok step
    · cases failed
      decide
    · obtain ⟨rfl, -⟩ | ⟨rfl, -⟩ | rfl | rfl := Termination.check_cases verdict.symm <;> decide
  | @stepped left s t last o o' o'' reports ending answer step rest ih =>
    intro sound
    have reported := sound.recordIteration c
    have box := (major_box step).symm ▸ reported.box
    obtain ⟨res, u, took, -, rfl⟩ := major_next step
    obtain ⟨later, finite, status⟩ := ih ⟨took.finite reported, rfl, box⟩
    exact ⟨List.forall_mem_cons.mpr ⟨reported, later⟩, finite, status⟩

/-- A run with a usable start goes from a sound state to a finite point, by sound reports. -/
theorem Path.sound {status : Status} (able : c.Solvable)
    (settled : s.view.box.Settled (.ofSettings c.settings.inner))
    (usable : ¬StartUnusable c.problem s.z s.world.problem)
    (path : Path c obs s o reports status last) :
    (∀ r ∈ reports, r.Sound (.ofSettings c.settings.inner)) ∧ allFinite last.z.toList = true ∧
      status ≠ .incompleteInit := by
  cases path with
  | @startFailed f t start =>
    have sound := prepare_sound settled usable start
    refine ⟨List.forall_mem_nil _, sound.point, ?_⟩
    have given : ((s.view.userStart c.problem s.z).run s.world.problem).1.1 = true := by
      rwa [← s.view.userStart_refused_iff, Bool.not_eq_false] at usable
    rw [outcome_prepare] at start
    dsimp only at start
    rw [if_pos given] at start
    obtain ⟨q, rfl⟩ := settle_failure start
    nofun
  | startDecided start =>
    have sound := prepare_sound settled usable start
    refine ⟨List.forall_mem_nil _, sound.point, ?_⟩
    rw [outcome_prepare] at start
    dsimp only at start
    split at start
    · obtain ⟨s₁, w, -, verdict, -⟩ := settle_ok start
      obtain ⟨rfl, -⟩ | ⟨rfl, -⟩ | rfl | rfl := Termination.check_cases verdict.symm <;> nofun
    · cases start
  | looped start course => exact course.sound able (prepare_sound settled usable start)

/-- A run with an unusable start ends at once, with a status that says so. -/
theorem Path.refused {status : Status}
    (unusable : StartUnusable c.problem s.z s.world.problem)
    (path : Path c obs s o reports status last) : reports = [] ∧ status = .incompleteInit := by
  obtain ⟨t, refused⟩ := prepare_refused unusable
  cases path with
  | startFailed start =>
    cases start.symm.trans refused
    exact ⟨rfl, rfl⟩
  | startDecided start | looped start => cases start.symm.trans refused

omit [DenseSolver Extended] in
theorem Engine.opened_place (e : Engine Extended σ d) :
    e.opened.z = e.state.z ∧ e.opened.view.box = e.state.view.box ∧
      e.opened.world.problem = e.state.world.problem := by
  unfold Engine.opened State.recordFrom
  split
  · exact ⟨rfl, rfl, rfl⟩
  · exact ⟨rfl, rfl, rfl⟩

end Loop

/-- Bounds that were validated, and moved apart where they nearly coincided, are never refused
again, and no subproblem wants for a start.

In every run after any others the point is finite at each report, and every subproblem has an engine
whose run does not end for want of a start. The run itself does so if and only if the user's
starting point, or the inequality bodies there, are missing or not finite; in every other run the
point stays finite to the end. -/
theorem validated_bounds_pass_again {σ ω : Type} [DenseSolver Extended] {d : Dims}
    {p : Problem Extended σ d} {settings : PenaltySettings Extended} {w w' : World Extended σ}
    {e₀ e : Engine Extended σ d} (perturb : 0 < settings.inner.fixedVarPerturb)
    (hessian : settings.inner.hessian = .exact → p.providesHessian = true)
    (created : (Engine.create p settings).outcome w = (.ok e₀, w')) (runs : e₀.Reaches e)
    (obs : Observer Extended d ω) (o : ω) :
    ∃ reports status last, e.Follows obs o reports status last ∧
      (e.run obs o).2.1.state.z = last.z ∧
      (∀ r ∈ reports, allFinite r.z.toList = true ∧ ∃ engine u,
        (Barrier.Engine.create (r.view.problem p) settings.inner).outcome r.world =
          (.ok engine, u) ∧ (engine.run Observer.silent ()).1.status ≠ .incompleteInit) ∧
      .incompleteInit ∉ (e.run obs o).1.info.innerStatuses ∧
      ((e.run obs o).1.status = .incompleteInit ↔
        StartUnusable p e.state.z e.state.world.problem) ∧
      (¬StartUnusable p e.state.z e.state.world.problem → allFinite last.z.toList = true) := by
  obtain ⟨setup₀, valid, b, inner, queried, viewed⟩ := Engine.create_parts created
  have setup : e.setup = ⟨p, settings⟩ := runs.setup_eq.trans setup₀
  have able : e.setup.Solvable := by
    rw [setup]
    refine ⟨?_, hessian⟩
    intro empty
    simp [Dims.validate, empty] at valid
  have settled : e.state.view.box.Settled (.ofSettings settings.inner) := by
    rw [runs.box, viewed]
    exact View.ofBounds_settled perturb queried
  obtain ⟨opened, box, memory⟩ := e.opened_place
  obtain ⟨reports, status, last, u, follows, left⟩ := e.run_leaves obs o
  have path := follows.path
  have told : (e.run obs o).1.status = status := by
    rw [follows.result]
    rfl
  have counted := (path.tally e.opened_tally).innerStatuses
  have statuses : (e.run obs o).1.info.innerStatuses = last.innerStatuses := by
    rw [follows.result]
    rfl
  refine ⟨reports, status, last, follows, by rw [left], ?_⟩
  rw [statuses, counted, told]
  rw [setup] at path able ⊢
  by_cases unusable : StartUnusable p e.state.z e.state.world.problem
  · obtain ⟨rfl, rfl⟩ := path.refused (opened.symm ▸ memory.symm ▸ unusable)
    refine ⟨List.forall_mem_nil _, ?_, iff_of_true rfl unusable, absurd unusable⟩
    simp [solves]
  · obtain ⟨sound, finite, started⟩ := path.sound able (box.symm ▸ settled)
      (opened.symm ▸ memory.symm ▸ unusable)
    refine ⟨fun r member => ⟨(sound r member).point, (sound r member).solvable able⟩, ?_,
      iff_of_false started unusable, fun _ => finite⟩
    -- every inner status is that of the subproblem of a report
    rw [List.mem_map]
    rintro ⟨res, member, incomplete⟩
    obtain ⟨r, reported, found⟩ := List.mem_filterMap.mp member
    have reached : r ∈ reports := by
      split at reported
      · exact List.mem_of_mem_dropLast reported
      · exact reported
    obtain ⟨res', found', regular⟩ := (sound r reached).innerResult able
    cases found.symm.trans found'
    exact regular incomplete

namespace Held

/-- Minimize `x` where both bounds of `x` are one. -/
def problem : Problem Extended Unit ⟨1, 0, 0⟩ where
  variableBounds := pure (.good (single (.finite 1), single (.finite 1)))
  inequalityBounds := pure (.silent true)
  start := pure (.good (single (.finite 1)))
  objective x _ := pure (.good (x.get ⟨0, Nat.one_pos⟩))
  gradient _ _ := pure (.good (single (.finite 1)))
  equalities _ _ := pure (.silent true)
  inequalities _ _ := pure (.silent true)
  equalityJacobian _ _ := pure (.silent true)
  inequalityJacobian _ _ := pure (.silent true)
  providesHessian := false
  hessian _ _ _ _ _ := pure (.silent false)

/-- Default parameters, but coinciding bounds are moved far apart. -/
noncomputable def settings : PenaltySettings Extended :=
  { (PenaltySettings.default : PenaltySettings Extended) with
    inner := { (PenaltySettings.default : PenaltySettings Extended).inner with
      fixedVarPerturb := 0.5 } }

theorem perturb_eq : settings.inner.fixedVarPerturb = .finite 0.5 := rfl

theorem perturb_pos : 0 < settings.inner.fixedVarPerturb := by
  rw [perturb_eq, Extended.zero_eq, Extended.finite_lt]
  norm_num

noncomputable def bounds : Bounds Extended ⟨1, 0, 0⟩ where
  x := ⟨#v[⟨.finite 0.5, true⟩], #v[⟨.finite 1.5, true⟩]⟩
  s := ⟨#v[], #v[]⟩
  relaxedFixed := 1

theorem bounds_of_raw : Bounds.ofRaw (d := ⟨1, 0, 0⟩) (.ofSettings settings.inner)
    #v[.finite 1] #v[.finite 1] (Vector.replicate 0 (-infinity)) (Vector.replicate 0 infinity) =
      .ok bounds := by
  let rule : Bounds.FixedRule Extended := .ofSettings settings.inner
  have tolerance : rule.tolerance = .finite 1e-15 := rfl
  have near : rule.coincide (.finite 1) (.finite 1) = true := by
    rw [Bounds.FixedRule.coincide, Coinciding.isFiniteBound_finite (by norm_num), tolerance]
    simp [Extended.one_eq]
    norm_num
  have apart : rule.settle (.finite 1) (.finite 1) = (.finite 0.5, .finite 1.5) := by
    have perturb : rule.perturb = .finite 0.5 := perturb_eq
    rw [Bounds.FixedRule.settle, if_pos near, perturb]
    simp [Extended.one_eq]
    norm_num
  rw [Bounds.ofRaw_ok_iff]
  refine ⟨fun i => ?_, fun j => j.elim0, ?_⟩
  · obtain rfl := Fin.fin_one_eq_zero i
    have relaxed : rule.handling ≠ .error := by decide
    exact Bounds.variableFault_eq_none_iff.mpr ⟨Extended.isUndefined_finite 1,
      Extended.isUndefined_finite 1, lt_irrefl (1 : ℝ), fun refused => absurd refused relaxed⟩
  · have present {r : ℝ} (small : |r| < 1e20) : Bound.of (Extended.finite r) = ⟨.finite r, true⟩ := by
      rw [Bound.of, Coinciding.isFiniteBound_finite small]
    have moved : Bounds.settledBox rule #v[Extended.finite 1] #v[Extended.finite 1] = bounds.x := by
      apply congrArg₂ Box.mk <;> refine ext_get fun i => ?_ <;>
        rw [Subsingleton.elim i 0, get_zipWith]
      · exact (congrArg (Bound.of ·.1) apart).trans (present (by norm_num))
      · exact (congrArg (Bound.of ·.2) apart).trans (present (by norm_num))
    have counted : Bounds.coinciding (n := 1) rule #v[Extended.finite 1] #v[Extended.finite 1] = 1 := by
      simp [Bounds.coinciding, near]
    have empty : Bounds.settledBox rule (Vector.replicate 0 (-infinity))
        (Vector.replicate 0 infinity) = bounds.s := congrArg₂ Box.mk Vector.eq_empty Vector.eq_empty
    have none : Bounds.coinciding rule (Vector.replicate 0 (-infinity))
        (Vector.replicate 0 infinity) = 0 := rfl
    rw [moved, counted, empty, none]
    rfl

theorem bounds_queried :
    (Bounds.ofProblem problem (.ofSettings settings.inner)).run () = (.ok bounds, ()) := by
  rw [← bounds_of_raw]
  rfl

noncomputable def engine : Engine Extended Unit ⟨1, 0, 0⟩ :=
  ⟨⟨problem, settings⟩, .initial settings (.ofBounds bounds) ⟨(), []⟩⟩

theorem created : (Engine.create problem settings).outcome ⟨(), []⟩ = (.ok engine, ⟨(), []⟩) := by
  have positive : ¬(settings.rho0 ≤ 0 ∨ (!isFinite settings.rho0) = true) := by
    simp only [settings, PenaltySettings.default, Extended.ofScientific_eq, Extended.zero_eq,
      Extended.finite_le, Extended.isFinite_finite]
    norm_num
  exact Engine.create_of_bounds positive rfl bounds_queried rfl

noncomputable def values : Evaluation Extended ⟨1, 0, 0⟩ :=
  ⟨.finite 1, #v[], #v[], #v[.finite 1], #v[], #v[]⟩

theorem evaluated (w : Unit) :
    (View.evaluateAt problem #v[.finite 1] true).run w = (some (values, #v[]), ()) := by
  have none : penaltyVector values (#v[.finite 1] : Vector Extended 1) = #v[] := Vector.eq_empty
  rw [← none]
  rfl

theorem slope_eq {v : View Extended ⟨1, 0, 0⟩} (box : v.box = bounds.x) :
    (v.projectedGradient #v[.finite 1] (v.meritGradient values #v[])).toList = [.finite 0.5] := by
  have unpenalized {y : Vector Extended 0} {a : Dense Extended 0 1} {g : Vector Extended 1} :
      a.addTransposeProduct y g = g := by
    have none : a.zip y = #v[] := Vector.eq_empty
    rw [Dense.addTransposeProduct, none]
    rfl
  have slope : (v.meritGradient values #v[]).get (0 : Fin 1) = .finite 1 := by
    refine (get_append_castAdd _ _ (0 : Fin 1)).trans ?_
    rw [Evaluation.lagrangianGradient, unpenalized, unpenalized]
    rfl
  have entry : (v.projectedGradient #v[.finite 1] (v.meritGradient values #v[])).get (0 : Fin 1) =
      .finite 0.5 := by
    rw [View.projectedGradient, Vector.get_ofFn, clampTo, box, slope]
    simp [bounds, Vector.get]
    norm_num
  rw [toList_eq_map_get]
  exact congrArg (fun e => [e]) entry

/-- A check at one is undecided. -/
theorem settled {s : State Extended Unit ⟨1, 0, 0⟩} (point : s.z = #v[.finite 1])
    (box : s.view.box = bounds.x) (fresh : s.iter = 0) :
    ∃ t, (settle engine.setup).outcome s = (.ok none, t) := by
  have objective : (evaluateObjective engine.setup).outcome s =
      (.ok (), { s with obj := .finite 1 }) := by
    rw [outcome_evaluateObjective, point]
    rfl
  have measured (w : Unit) : (s.view.residuals problem s.z).run w =
      (some (#v[], s.view.projectedGradient #v[.finite 1] (s.view.meritGradient values #v[])), ()) := by
    rw [point]
    simp only [View.residuals, run_bind, evaluated]
    rfl
  have optim : infNorm [Extended.finite 0.5] = .finite 0.5 := by
    simp [infNorm, Extended.zero_eq]
    norm_num
  have undecided : ((Termination.ofPenalty settings).check [.finite 0, .finite 0.5] 0).1 =
      none := by
    apply Termination.check_none <;>
      simp [Termination.allWithin, Termination.ofPenalty, Termination.relativelySmall, settings,
        PenaltySettings.default, Extended.ofScientific_eq] <;> norm_num
  have errors : (evaluateErrors engine.setup).outcome { s with obj := .finite 1 } =
      (.ok (), { s with
        obj := .finite 1
        penalty := #v[]
        errFeas := .finite 0
        errOptim := .finite 0.5 }) := by
    have answered := measured s.world.problem
    rw [outcome_evaluateErrors]
    simp only [show engine.setup.problem = problem from rfl, answered, slope_eq box, optim]
    rfl
  rw [settle, Step.outcome_bind, objective]
  dsimp only
  rw [Step.outcome_bind, errors]
  dsimp only
  simp only [Step.outcome_modify_bind, Step.outcome_get_bind, Step.outcome_set_bind,
    Step.outcome_pure]
  refine ⟨_, Prod.ext (congrArg Except.ok ?_) rfl⟩
  refine Eq.trans ?_ undecided
  rw [State.check, fresh]
  rfl

/-- A run goes on from its start. -/
theorem prepared : ∃ first, (prepare engine.setup).outcome engine.opened = (.ok none, first) := by
  have point : ((engine.opened.view.userStart problem engine.opened.z).run ()).1.2 =
      #v[.finite 1] := ext_get fun (i : Fin 1) => by
    rw [Subsingleton.elim i 0]
    exact get_append_castAdd _ _ (0 : Fin 1)
  obtain ⟨first, start⟩ := settled (s := engine.opened.placed engine.setup #v[.finite 1]) rfl
    (View.ofBounds_box bounds) rfl
  refine ⟨first, ?_⟩
  rw [← start, ← point, outcome_prepare]
  rfl

theorem usable : ¬StartUnusable problem engine.state.z engine.state.world.problem := by
  have point : allFinite (#v[Extended.finite 1]).toList = true := rfl
  rintro (refused | undefined | refused | undefined)
  · cases refused
  · exact Bool.noConfusion (point.symm.trans undefined)
  · cases refused
  · rw [← Bool.not_eq_true, Linear.allFinite_toList_iff] at undefined
    exact undefined fun i => i.elim0

variable [DenseSolver Extended]

/-- It solves a subproblem over the bounds that were moved apart. -/
theorem solves_first : (engine.run Observer.silent ()).1.info.innerStatuses ≠ [] := by
  obtain ⟨reports, status, last, follows⟩ := engine.run_follows Observer.silent ()
  have counted := (follows.path.tally engine.opened_tally).innerStatuses
  have statuses : (engine.run Observer.silent ()).1.info.innerStatuses = last.innerStatuses := by
    rw [follows.result]
    rfl
  rw [statuses, counted]
  obtain ⟨first, start⟩ := prepared
  cases follows.path with
  | startFailed other | startDecided other => cases other.symm.trans start
  | looped other course =>
    obtain rfl := congrArg Prod.snd (start.symm.trans other)
    have apart : engine.opened.view.box.Settled (.ofSettings settings.inner) :=
      View.ofBounds_settled (p := problem) (w := ()) perturb_pos bounds_queried
    have able : engine.setup.Solvable := ⟨one_ne_zero, nofun⟩
    obtain ⟨res, found, -⟩ :=
      ((prepare_sound apart usable start).recordIteration engine.setup).innerResult able
    have head := (course.solves_head (Nat.succ_ne_zero 999) rfl).trans found
    intro none
    rw [List.map_eq_nil_iff.mp none] at head
    cases head

end Held

open scoped Linear.Exact in
/-- A variable with coinciding bounds: they are moved apart, and the subproblems over them are not
refused. -/
theorem held_variable_passes_again :
    (Engine.create Held.problem Held.settings).outcome ⟨(), []⟩ = (.ok Held.engine, ⟨(), []⟩) ∧
      (Held.engine.run Observer.silent ()).1.status ≠ .incompleteInit ∧
      (Held.engine.run Observer.silent ()).1.info.innerStatuses ≠ [] ∧
      .incompleteInit ∉ (Held.engine.run Observer.silent ()).1.info.innerStatuses ∧
      allFinite (Held.engine.run Observer.silent ()).2.1.state.z.toList = true := by
  obtain ⟨reports, status, last, -, left, -, statuses, refused, finite⟩ :=
    validated_bounds_pass_again Held.perturb_pos (by decide) Held.created .refl Observer.silent ()
  refine ⟨Held.created, fun status => Held.usable (refused.mp status), Held.solves_first,
    statuses, ?_⟩
  rw [left]
  exact finite Held.usable

end Penalty

end SmoothOpt
