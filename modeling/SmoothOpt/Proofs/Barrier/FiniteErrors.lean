import Mathlib
import SmoothOpt.Proofs.Barrier.Finite

/-!
The errors of a successful run over extended numbers.

The error norms ignore undefined entries and an overall error ignores an undefined quotient, so that
a small error alone says little. It is enough that a run never meets anything but real numbers:
`State.Real` holds after the start and is kept by every pass, and then each error is the real one
and bounds the entries it is taken over. Three parameters can break this from the start: the push of
the starting point, the widening of the bounds and the constant of the starting multipliers. An
infinite constant is taken for a solution.
-/
namespace SmoothOpt

open Scalar Linear

open Extended (finite infinite)

variable {n : Nat} {d : Dims}

section Bounds

theorem Bound.moved_finite {b : Bound Extended} (shift : ℝ)
    (regular : b.present = true → isFinite b.value = true)
    (present : (b.moved (finite shift)).present = true) :
    isFinite (b.moved (finite shift)).value = true := by
  unfold Bound.moved at present ⊢
  split
  · rename_i earnest
    obtain ⟨v, value⟩ := Extended.exists_of_isFinite (regular earnest)
    rw [value, Extended.magnitude_finite, Extended.one_eq, Extended.maxNum_finite]
    rfl
  · rename_i absent
    rw [if_neg absent] at present
    exact absurd present absent

theorem Box.IsFinite.widened {b : Box Extended n} (h : b.IsFinite) (factor : ℝ) :
    (b.widened (finite factor)).IsFinite := by
  have down : -1 * finite factor = finite (-1 * factor) := rfl
  have up : 1 * finite factor = finite (1 * factor) := rfl
  constructor
  · intro i
    rw [Box.widened, Vector.get_map, down]
    exact Bound.moved_finite _ (h.lower i)
  · intro i
    rw [Box.widened, Vector.get_map, up]
    exact Bound.moved_finite _ (h.upper i)

structure Bounds.IsFinite (b : Bounds Extended d) : Prop where
  x : b.x.IsFinite
  s : b.s.IsFinite

theorem Bounds.settledBox_finite (rule : FixedRule Extended) (lo hi : Vector Extended n) :
    (settledBox rule lo hi).IsFinite := by
  constructor
  · intro i present
    rw [settledBox, get_zipWith] at present ⊢
    exact isFinite_of_isFiniteBound present
  · intro i present
    rw [settledBox, get_zipWith] at present ⊢
    exact isFinite_of_isFiniteBound present

theorem Bounds.IsFinite.relax {b : Bounds Extended d} (h : b.IsFinite) (factor : ℝ) :
    (b.relax (finite factor)).IsFinite := by
  unfold Bounds.relax
  split
  · exact h
  · exact ⟨h.x.widened factor, h.s.widened factor⟩

end Bounds

/-- The parameters that shape a starting point unchecked are finite: its push, the widening of the
bounds and, where they are used, the constant starting multipliers. -/
structure InteriorSettings.StartsReal (s : InteriorSettings Extended) : Prop where
  push : isFinite s.kappa1 = true
  widening : isFinite s.boundRelaxFactor = true
  multipliers : s.multiplierStart = .constant → isFinite s.multiplierInit = true

namespace Barrier

variable {σ ω : Type} {c : Setup Extended σ d} {s s' : State Extended σ d}

/-- The bounds of an engine are finite where they are present. -/
theorem Engine.create_finite {p : Problem Extended σ d} {settings : InteriorSettings Extended}
    (real : settings.StartsReal) {w w' : World Extended σ} {e : Engine Extended σ d}
    (created : (Engine.create p settings).outcome w = (.ok e, w')) :
    e.setup.problem = p ∧ e.setup.settings = settings ∧ e.setup.bounds.IsFinite := by
  obtain ⟨-, b, exact, inner, queried, -, rfl⟩ := Engine.create_parts created
  obtain ⟨-, -, rfl⟩ := Bounds.ofRaw_ok_iff.mp (Bounds.ofProblem_ok queried)
  obtain ⟨factor, widening⟩ := Extended.exists_of_isFinite real.widening
  refine ⟨rfl, rfl, ?_⟩
  dsimp only
  rw [widening]
  exact Bounds.IsFinite.relax ⟨Bounds.settledBox_finite .., Bounds.settledBox_finite ..⟩ factor

end Barrier

section Schedule

variable {settings : InteriorSettings Extended} {mu : Extended}

theorem Extended.maxNum_infinite (a : ℝ) : maxNum (finite a) (infinite true) = infinite true := by
  have below : finite a ≤ infinite true := rfl
  simp [maxNum, below]

theorem Extended.infinite_maxNum (a : ℝ) : maxNum (infinite true) (finite a) = infinite true := by
  have above : ¬infinite true ≤ finite a := nofun
  simp [maxNum, above]

theorem Extended.undefined_maxNum (a : Extended) : maxNum undefined a = a := by
  have incomparable : ¬undefined ≤ undefined := nofun
  simp [maxNum, isUndefined, incomparable]

theorem Extended.maxNum_negative_infinity (a : ℝ) :
    maxNum (finite a) (infinite false) = finite a := by
  have below : ¬finite a ≤ infinite false := nofun
  simp [maxNum, below]

namespace Schedule

/-- The barrier parameter stays positive: its floor is. -/
theorem next_pos_extended (inRange : settings.InRange) (mu : Extended) :
    0 < (ofSettings settings).next mu := by
  have floor_pos : 0 < (ofSettings settings).muMin := by
    have ten : (10.0 : Extended) = finite 10 := by
      rw [Extended.ofScientific_eq]
      norm_num
    rw [ofSettings, ten]
    obtain ⟨r, positive, same⟩ | same := Extended.positive_cases inRange.tolerance
    · rw [same, Extended.finite_div _ (by norm_num)]
      exact div_pos positive (by norm_num)
    · rw [same, Extended.infinite_div_finite _ (by norm_num)]
      rfl
  exact Extended.maxNum_pos floor_pos _

/-- The fraction-to-boundary parameter is real, also where the barrier parameter is not. -/
theorem tau_real (inRange : settings.InRange) (mu_pos : 0 < mu) :
    ∃ t : ℝ, 0 ≤ t ∧ t < 1 ∧ (ofSettings settings).tau mu = finite t := by
  obtain ⟨tauMin, least, tau_pos, tau_lt⟩ :=
    Extended.exists_of_lt_of_lt inRange.tauMin.1 inRange.tauMin.2
  rw [tau, ofSettings, least, Extended.one_eq]
  obtain ⟨m, m_pos, rfl⟩ | rfl := Extended.positive_cases mu_pos
  · refine ⟨max tauMin (1 - m), le_max_of_le_left tau_pos.le, max_lt tau_lt (by linarith), ?_⟩
    rw [Extended.finite_sub, Extended.maxNum_finite]
  · exact ⟨tauMin, tau_pos.le, tau_lt, Extended.maxNum_negative_infinity tauMin⟩

end Schedule

end Schedule

/-- The barrier parameter is a positive real number, or no bound is there to feel it. -/
def Tempered (mu : Extended) (b : Bounds Extended d) : Prop :=
  (∃ m : ℝ, 0 < m ∧ mu = finite m) ∨ b.x.Absent ∧ b.s.Absent

section Iterate

variable {b : Bounds Extended d} {it : Iterate ℝ d} {mu kappa : Extended}

/-- A real Newton solution gives a real direction. -/
theorem Direction.ofNewton_real (inside : it.Interior b.toReal) (tempered : Tempered mu b)
    {sol : Newton.Solution Extended d} {u : Newton.Solution ℝ d} (dx : sol.dx = Linear.lift u.dx)
    (ds : sol.ds = Linear.lift u.ds) (dyc : sol.dyc = Linear.lift u.dyc)
    (dyd : sol.dyd = Linear.lift u.dyd) :
    ∃ dir : Direction ℝ d, Direction.ofNewton sol it.lift b mu = dir.lift := by
  have solved : ∀ m : ℝ, Direction.ofNewton sol it.lift b (finite m) =
      (Direction.ofNewton u it b.toReal m).lift := by
    intro m
    simp only [ofNewton, Direction.lift, Iterate.lift, Bounds.toReal, dx, ds, dyc, dyd,
      Block.completeStep_lift inside.x, Block.completeStep_lift inside.s]
  obtain ⟨m, -, rfl⟩ | ⟨absent_x, absent_s⟩ := tempered
  · exact ⟨_, solved m⟩
  · refine ⟨_, Eq.trans ?_ (solved 1)⟩
    simp only [ofNewton, Block.completeStep_of_absent absent_x _ mu (finite 1),
      Block.completeStep_of_absent absent_s _ mu (finite 1)]

/-- Clipping keeps a real interior point real and interior, also with an infinite factor. -/
theorem Iterate.clip_real (inside : it.Interior b.toReal) (tempered : Tempered mu b)
    (factor : 1 ≤ kappa) :
    ∃ it' : Iterate ℝ d, it'.Interior b.toReal ∧ it.lift.clip b mu kappa = it'.lift := by
  obtain ⟨m, m_pos, rfl⟩ | ⟨absent_x, absent_s⟩ := tempered
  · obtain ⟨k, at_least, rfl⟩ | rfl := Extended.atLeast_cases factor
    · have k_pos : 0 < k := one_pos.trans_le at_least
      refine ⟨it.clip b.toReal m k, inside.clip m_pos at_least, ?_⟩
      simp only [clip, lift, Bounds.toReal, Block.multipliersClipped_lift inside.x m k_pos,
        Block.multipliersClipped_lift inside.s m k_pos]
    · refine ⟨it, inside, ?_⟩
      simp only [clip, lift, Block.multipliersClipped_infinite inside.x m_pos,
        Block.multipliersClipped_infinite inside.s m_pos]
  · refine ⟨it, inside, ?_⟩
    simp only [clip, lift, Block.multipliersClipped_of_absent absent_x,
      Block.multipliersClipped_of_absent absent_s]

/-- A block that starts at a real point is real and interior, whatever it held before. -/
theorem Block.start_real {b : Box Extended n} (regular : b.IsFinite) (k : Block Extended n)
    (point : Vector ℝ n) : ∃ u : Block ℝ n, u.Interior b.toReal ∧
      ({ k with point := Linear.lift point }.withSlacks b Barrier.minSlack).withMultipliers b 1 =
        u.lift := by
  let placed : Block ℝ n := ⟨point, point, point, point, point⟩
  have overwritten : ({ k with point := Linear.lift point }.withSlacks b
      Barrier.minSlack).withMultipliers b 1 =
        (placed.lift.withSlacks b (finite 1e-16)).withMultipliers b (finite 1) := rfl
  refine ⟨(placed.withSlacks b.toReal 1e-16).withMultipliers b.toReal 1,
    interior_start (by norm_num) one_pos, overwritten.trans ?_⟩
  rw [withSlacks_lift regular, withMultipliers_lift]

end Iterate

namespace Barrier

variable {σ ω : Type} {c : Setup Extended σ d} {s s' : State Extended σ d}

/-- A finite right-hand side has finite gradients. -/
theorem State.barrierGradients_finite (regular : allFinite (s.newtonData c).rhs.toList = true) :
    (∀ i, isFinite ((barrierGradients s.eval s.curr c.bounds s.mu).1.get i) = true) ∧
      ∀ j, isFinite ((barrierGradients s.eval s.curr c.bounds s.mu).2.get j) = true := by
  rw [allFinite_toList_iff] at regular
  refine ⟨?_, ?_⟩
  · intro i
    have entry := regular (((i.castAdd d.mIneq).castAdd d.mEq).castAdd d.mIneq)
    rw [Newton.Data.rhs, get_append_castAdd, get_append_castAdd, get_append_castAdd,
      State.newtonData, Vector.get_map] at entry
    exact Extended.isFinite_of_neg entry
  · intro j
    have entry := regular (((j.natAdd d.n).castAdd d.mEq).castAdd d.mIneq)
    rw [Newton.Data.rhs, get_append_castAdd, get_append_castAdd, get_append_natAdd,
      State.newtonData, Vector.get_map] at entry
    exact Extended.isFinite_of_neg entry

/-- Everything a pass looks at is real, the barrier parameter apart, and the point is interior. -/
structure State.Real (s : State Extended σ d) (c : Setup Extended σ d) : Prop where
  mu : 0 < s.mu
  tau : s.tau = c.schedule.tau s.mu
  curr : ∃ it : Iterate ℝ d, it.Interior c.bounds.toReal ∧ s.curr = it.lift
  eval : s.eval.IsFinite

theorem State.Real.reported (inRange : c.settings.InRange) (h : s.Real c) :
    (s.reported c).Real c := by
  apply State.updateBarrier_preserves (P := fun s => s.Real c)
  · intro s w _ h _ _
    exact ⟨Schedule.next_pos_extended inRange _, rfl, h.curr, h.eval⟩
  · exact ⟨h.mu, h.tau, h.curr, h.eval⟩

/-- An accepted step along a real direction leads to a real interior point. -/
theorem State.Real.moveTo (inRange : c.settings.InRange) (h : s.Real c) {u : Direction ℝ d}
    {acc : Accepted Extended} {e : Evaluation Extended d}
    (accepted : AcceptedFrom c s u.lift (s.curr.maxPrimalStep u.lift c.bounds s.tau) acc e)
    (e' : Evaluation Extended d) :
    ∃ (it : Iterate ℝ d) (alpha : ℝ), it.Interior c.bounds.toReal ∧ acc.alpha = finite alpha ∧
      (s.moveTo c u.lift acc e' (s.curr.maxDualStep u.lift c.bounds s.tau)).curr = it.lift := by
  obtain ⟨it, inside, real⟩ := h.curr
  obtain ⟨tau, tau_nonneg, tau_lt, fraction⟩ := Schedule.tau_real inRange h.mu
  rw [← Setup.schedule, ← h.tau] at fraction
  have length := accepted.length
  rw [real, fraction, Iterate.maxPrimalStep_lift, halved_lift] at length
  obtain ⟨alpha_nonneg, admissible⟩ := halved_mem
    (Iterate.maxPrimalStep_nonneg inside.slacksPositive tau_nonneg u) acc.backtracks
  -- the trial point has the multipliers of the current one, so the rule allows the same step
  have arrived := (inside.trial tau_nonneg tau_lt alpha_nonneg admissible).takeBoundStep tau_nonneg
    tau_lt u
  refine ⟨_, _, arrived, length, ?_⟩
  simp only [State.moveTo, real, fraction, length, Iterate.trial_lift, Iterate.maxDualStep_lift,
    Iterate.takeBoundStep_lift]
  rfl

variable [DenseSolver Extended]

/-- A Newton system at a real point that has a solution has a real one, and an infinite barrier
parameter would have shown in its right-hand side. -/
theorem State.Real.direction (h : s.Real c) {dir : Direction Extended d}
    (searched : (searchDirection c).outcome s = (.ok dir, s')) :
    Tempered s.mu c.bounds ∧ ∃ u : Direction ℝ d, dir = u.lift := by
  obtain ⟨kept, sol, solved, rfl⟩ := searchDirection_ok searched
  obtain ⟨⟨u, dx, ds, dyc, dyd⟩, regular⟩ := Newton.solve_real solved
  obtain ⟨it, inside, real⟩ := h.curr
  have tempered : Tempered s.mu c.bounds := by
    obtain ⟨m, m_pos, same⟩ | unbounded := Extended.positive_cases h.mu
    · exact .inl ⟨m, m_pos, same⟩
    · obtain ⟨pull_x, pull_s⟩ := State.barrierGradients_finite regular
      obtain ⟨w, k, m, t, rfl⟩ := kept
      simp only [barrierGradients, real, unbounded] at pull_x pull_s
      exact .inr ⟨Block.absent_of_barrierPull inside.x pull_x,
        Block.absent_of_barrierPull inside.s pull_s⟩
  rw [real]
  exact ⟨tempered, Direction.ofNewton_real inside tempered dx ds dyc dyd⟩

/-- A completed iteration leads from a real state to a real state. -/
theorem State.Real.of_advance (inRange : c.settings.InRange) (h : s.Real c)
    (step : (advance c).outcome s = (.ok (), s')) : s'.Real c := by
  have eval := advance_finite step
  obtain ⟨dir, acc, e, e', moved, chosen, -, -, kept, rfl⟩ := advance_ok step
  obtain ⟨⟨s₁, searched⟩, -⟩ := chosen.searched
  obtain ⟨tempered, u, rfl⟩ := h.direction searched
  obtain ⟨it, alpha, inside, length, place⟩ := h.moveTo inRange chosen.accepted e'
  have same : moved.curr = it.lift ∧ moved.mu = s.mu ∧ moved.tau = s.tau := by
    obtain ⟨w, k, m, t, rfl⟩ := kept
    exact ⟨place, rfl, rfl⟩
  obtain ⟨same_curr, same_mu, same_tau⟩ := same
  obtain ⟨y, refreshed⟩ := it.refreshMultipliers_real c.settings.multiplierUpdate moved.eval
    c.bounds u alpha
  have inside_y : (it.withConstraintMultipliers y).Interior c.bounds.toReal := ⟨inside.x, inside.s⟩
  obtain ⟨it', inside', clipped⟩ := Iterate.clip_real inside_y tempered inRange.kappaSigma
  have curr := complete_curr moved c u.lift acc (s.curr.maxDualStep u.lift c.bounds s.tau)
  rw [same_curr, length, refreshed, same_mu, clipped] at curr
  obtain ⟨w, y', completed⟩ := complete_eq moved c u.lift acc
    (s.curr.maxDualStep u.lift c.bounds s.tau)
  refine ⟨?_, ?_, ⟨it', inside', curr⟩, eval⟩
  · rw [completed, State.completed, same_mu]
    exact h.mu
  · rw [completed, State.completed, same_mu, same_tau]
    exact h.tau

/-- The starting multipliers of the constraints are real: an estimate is checked, and the constant
is real by assumption. -/
theorem startMultipliersAt_real (real : c.settings.StartsReal) (x : Vector Extended d.n)
    (e : Evaluation Extended d) : ∃ y, startMultipliersAt c x e = liftPair y := by
  unfold startMultipliersAt startEstimate
  split
  · unfold lsqStart
    split
    · exact zeros_real
    · rename_i estimate
      obtain ⟨u, same⟩ := lsqEstimate_real estimate
      split
      · exact ⟨u, same⟩
      · exact zeros_real
  · rename_i constant
    obtain ⟨r, same⟩ := Extended.exists_of_isFinite (real.multipliers constant)
    refine ⟨(Vector.replicate _ r, Vector.replicate _ r), ?_⟩
    rw [same, liftPair, lift_replicate, lift_replicate]

/-- A successful start leaves a real state. -/
theorem State.Real.of_start (inRange : c.settings.InRange) (real : c.settings.StartsReal)
    (bounds : c.bounds.IsFinite) (h : (startingProcedure c).outcome s = (.ok (), s')) :
    s'.Real c := by
  obtain ⟨x0, x, e, w₀, w₁, w, -, given, pushed, answered, rfl⟩ := startingProcedure_parts h
  have regular : e.IsFinite := Evaluation.all_finite answered
  obtain ⟨kappa1, push⟩ := Extended.exists_of_isFinite real.push
  obtain ⟨kappa2, share, -, -⟩ := Extended.exists_of_le_of_le inRange.kappa2.1 inRange.kappa2.2
  obtain ⟨v, rfl⟩ := Linear.exists_lift given
  obtain ⟨u, body⟩ := Linear.exists_lift regular.ineq
  obtain ⟨y, multipliers⟩ := startMultipliersAt_real real x e
  rw [push, share, Box.pushInside_lift bounds.x] at pushed
  subst pushed
  obtain ⟨kx, inside_x, same_x⟩ := Block.start_real bounds.x s.curr.x
    (c.bounds.x.toReal.pushInside kappa1 kappa2 v)
  obtain ⟨ks, inside_s, same_s⟩ := Block.start_real bounds.s s.curr.s
    (c.bounds.s.toReal.pushInside kappa1 kappa2 u)
  refine ⟨inRange.mu0, rfl, ⟨⟨kx, ks, y.1, y.2⟩, ⟨inside_x, inside_s⟩, ?_⟩, regular⟩
  simp only [State.started, startIterate, Iterate.withSlacks, Iterate.withMultipliers,
    Iterate.withConstraintMultipliers, multipliers, push, share, body,
    Box.pushInside_lift bounds.s, same_x, same_s]
  rfl

theorem real_preserved (inRange : c.settings.InRange) :
    Preserved c fun (_ : List (State Extended σ d)) s => s.Real c where
  check _ _ h := ⟨h.mu, h.tau, h.curr, h.eval⟩
  report _ _ h := h.reported inRange
  step _ _ _ h step := h.of_advance inRange step

/-- A run that no failed iteration ended leaves a real state. -/
theorem Engine.Follows.real_exit {e : Engine Extended σ d} {obs : Observer Extended d ω} {o : ω}
    {first last : State Extended σ d} {reports : List (State Extended σ d)} {status : Status}
    (follows : e.Follows obs o first reports (.ok status) last)
    (inRange : e.setup.settings.InRange) (real : e.setup.settings.StartsReal)
    (bounds : e.setup.bounds.IsFinite) : last.Real e.setup := by
  obtain ⟨o', course⟩ := follows.course
  have started := State.Real.of_start inRange real bounds follows.start
  have beginning : (first.headed e.setup).Real e.setup := by
    obtain ⟨w, headed⟩ := first.headed_eq e.setup
    rw [headed]
    exact ⟨started.mu, started.tau, started.curr, started.eval⟩
  cases course.exit_holds (real_preserved inRange) [] beginning with
  | spent h => exact h
  | decided h verdict => exact ⟨h.mu, h.tau, h.curr, h.eval⟩
  | stopped h => exact h

end Barrier

section Errors

/-- A real number of magnitude at most `bound`. -/
def Extended.Within (a bound : Extended) : Prop := isFinite a = true ∧ magnitude a ≤ bound

/-- The errors are finite and bound all they are taken over: the entries of the residuals, and the
products of the present distances with their multipliers. -/
structure Residual.Bounded (r : Residual Extended d) (it : Iterate Extended d)
    (b : Bounds Extended d) : Prop where
  optim : isFinite r.nlpOptim = true
  feas : isFinite r.nlpFeas = true
  complem : isFinite r.nlpComplem = true
  rx : ∀ i, (r.rx.get i).Within r.nlpOptim
  rs : ∀ j, (r.rs.get j).Within r.nlpOptim
  rc : ∀ i, (r.rc.get i).Within r.nlpFeas
  rd : ∀ j, (r.rd.get j).Within r.nlpFeas
  xLower : ∀ i, (b.x.lower.get i).present = true →
    (it.x.slackLo.get i * it.x.multLo.get i).Within r.nlpComplem
  xUpper : ∀ i, (b.x.upper.get i).present = true →
    (it.x.slackHi.get i * it.x.multHi.get i).Within r.nlpComplem
  sLower : ∀ j, (b.s.lower.get j).present = true →
    (it.s.slackLo.get j * it.s.multLo.get j).Within r.nlpComplem
  sUpper : ∀ j, (b.s.upper.get j).present = true →
    (it.s.slackHi.get j * it.s.multHi.get j).Within r.nlpComplem

/-- Entries of a real vector are bounded by a norm at or above its own. -/
theorem within_of_infNorm {v : Vector ℝ n} {bound : ℝ} (le : infNorm v.toList ≤ bound)
    (i : Fin n) : ((lift v).get i).Within (finite bound) := by
  rw [get_lift]
  exact ⟨rfl, ((infNorm_le_iff v bound).mp le).2 i⟩

/-- Flagged products are bounded by a norm at or above their own. -/
theorem within_of_maskedComplementarity {s z : Vector ℝ n} {b : Vector (Bound Extended) n}
    {bound : ℝ} (le : maskedComplementarity s.toList z.toList (b.toList.map (·.present)) 0 ≤ bound)
    {i : Fin n} (present : (b.get i).present = true) :
    ((lift s).get i * (lift z).get i).Within (finite bound) := by
  have product := ((maskedComplementarity_le_iff s z b (·.present) 0 bound).mp le).2 i present
  rw [sub_zero] at product
  rw [get_lift, get_lift, Extended.finite_mul]
  exact ⟨rfl, product⟩

section Real

variable (it : Iterate ℝ d) (e : Evaluation ℝ d) (b : Bounds Extended d) (mu pSmax : Extended)

/-- At a real point the residuals are the real ones. -/
theorem Residual.compute_vectors :
    (compute it.lift e.lift b mu pSmax).rx = lift (compute it e b.toReal 0 1).rx ∧
      (compute it.lift e.lift b mu pSmax).rs = lift (compute it e b.toReal 0 1).rs ∧
      (compute it.lift e.lift b mu pSmax).rc = lift (compute it e b.toReal 0 1).rc ∧
      (compute it.lift e.lift b mu pSmax).rd = lift (compute it e b.toReal 0 1).rd := by
  have negated : (lift it.yd).map (-·) = lift (it.yd.map (-·)) := by
    apply ext_get
    simp
  have gap : Vector.zipWith (· - ·) (lift e.ineq) (lift it.s.point) =
      lift (Vector.zipWith (· - ·) e.ineq it.s.point) := by
    apply ext_get
    simp
  refine ⟨?_, ?_, rfl, gap⟩
  · exact (congrArg (Block.pull b.x · _ _) (e.lagrangianGradient_lift it.yc it.yd)).trans
      (pull_lift b.x _ _ _)
  · exact (congrArg (Block.pull b.s · _ _) negated).trans (pull_lift b.s _ _ _)

/-- At a real point the errors are the real ones, whatever the barrier parameter and the threshold
of the scaling are. -/
theorem Residual.compute_errors :
    (compute it.lift e.lift b mu pSmax).nlpOptim = finite (compute it e b.toReal 0 1).nlpOptim ∧
      (compute it.lift e.lift b mu pSmax).nlpFeas = finite (compute it e b.toReal 0 1).nlpFeas ∧
      (compute it.lift e.lift b mu pSmax).nlpComplem =
        finite (compute it e b.toReal 0 1).nlpComplem := by
  obtain ⟨rx, rs, rc, rd⟩ := compute_vectors it e b mu pSmax
  have optim : (compute it.lift e.lift b mu pSmax).nlpOptim =
      maxNum (infNorm (compute it.lift e.lift b mu pSmax).rx.toList)
        (infNorm (compute it.lift e.lift b mu pSmax).rs.toList) := rfl
  have feas : (compute it.lift e.lift b mu pSmax).nlpFeas =
      maxNum (infNorm (compute it.lift e.lift b mu pSmax).rc.toList)
        (infNorm (compute it.lift e.lift b mu pSmax).rd.toList) := rfl
  refine ⟨?_, ?_, complementarity_lift it b 0⟩
  · rw [optim, rx, rs, infNorm_lift, infNorm_lift, Extended.maxNum_finite, ← maxNum_real]
    rfl
  · rw [feas, rc, rd, infNorm_lift, infNorm_lift, Extended.maxNum_finite, ← maxNum_real]
    rfl

theorem Residual.compute_bounded : (compute it.lift e.lift b mu pSmax).Bounded it.lift b := by
  obtain ⟨rx, rs, rc, rd⟩ := compute_vectors it e b mu pSmax
  obtain ⟨optim, feas, complem⟩ := compute_errors it e b mu pSmax
  have optim_le : max (infNorm (compute it e b.toReal 0 1).rx.toList)
      (infNorm (compute it e b.toReal 0 1).rs.toList) ≤ (compute it e b.toReal 0 1).nlpOptim :=
    (maxNum_real _ _).ge
  have feas_le : max (infNorm (compute it e b.toReal 0 1).rc.toList)
      (infNorm (compute it e b.toReal 0 1).rd.toList) ≤ (compute it e b.toReal 0 1).nlpFeas :=
    (maxNum_real _ _).ge
  have complem_le : complementarity it b.toReal 0 ≤ (compute it e b.toReal 0 1).nlpComplem := le_rfl
  simp only [complementarity, Bounds.toReal, Box.hasLower_toReal, Box.hasUpper_toReal, maxNum_real,
    max_le_iff] at optim_le feas_le complem_le
  obtain ⟨⟨⟨xLower, xUpper⟩, sLower⟩, sUpper⟩ := complem_le
  constructor
  · rw [optim]
    rfl
  · rw [feas]
    rfl
  · rw [complem]
    rfl
  · rw [rx, optim]
    exact within_of_infNorm optim_le.1
  · rw [rs, optim]
    exact within_of_infNorm optim_le.2
  · rw [rc, feas]
    exact within_of_infNorm feas_le.1
  · rw [rd, feas]
    exact within_of_infNorm feas_le.2
  · intro i present
    rw [complem]
    exact within_of_maskedComplementarity xLower present
  · intro i present
    rw [complem]
    exact within_of_maskedComplementarity xUpper present
  · intro j present
    rw [complem]
    exact within_of_maskedComplementarity sLower present
  · intro j present
    rw [complem]
    exact within_of_maskedComplementarity sUpper present

end Real

end Errors

namespace Barrier

section Runs

variable {σ ω : Type} [DenseSolver Extended]

/-- A run that ends with success, with parameters set by options of which the three that shape the
start are finite, reports finite errors. They bound every residual of the returned point and every
product of a present distance with its multiplier. -/
theorem success_errors_finite {p : Problem Extended σ d} {settings : InteriorSettings Extended}
    (reached : settings.Configured) (real : settings.StartsReal) {e₀ e : Engine Extended σ d}
    {w w' : World Extended σ} (created : (Engine.create p settings).outcome w = (.ok e₀, w'))
    (same : e.setup = e₀.setup) (obs : Observer Extended d ω) (o : ω)
    (success : (e.run obs o).1.status = .success) :
    let res := (e.run obs o).1
    let left := (e.run obs o).2.1.state
    left.resid.Bounded left.curr e.setup.bounds ∧
      left.resid = .compute left.curr left.eval e.setup.bounds left.mu settings.pSmax ∧
      left.eval.AnswersAt p left.curr.x.point ∧
      res.info.errOptim = left.resid.nlpOptim ∧ res.info.errFeas = left.resid.nlpFeas ∧
      res.info.errComplem = left.resid.nlpComplem ∧ res.x = left.curr.x.point ∧
      res.yc = left.curr.yc ∧ res.yd = left.curr.yd ∧ res.zl = left.curr.x.multLo ∧
      res.zu = left.curr.x.multHi := by
  obtain ⟨rfl, rfl, bounds⟩ := Engine.create_finite real created
  have inRange := reached.inRange InteriorSettings.default_inRange_extended
  rw [← same] at inRange real bounds ⊢
  have regular : (e.run obs o).1.status.isFailure = false := by
    rw [success]
    rfl
  obtain ⟨first, reports, last, follows⟩ := Engine.follows_of_regular regular
  have coherent := follows.coherent_exit
  obtain ⟨-, -, ⟨it, -, at_point⟩, values⟩ := follows.real_exit inRange real bounds
  obtain ⟨eval, at_values⟩ := values.exists_lift
  have bounded : last.resid.Bounded last.curr e.setup.bounds := by
    rw [coherent.resid, at_point, at_values]
    exact Residual.compute_bounded it eval e.setup.bounds last.mu e.setup.settings.pSmax
  obtain ⟨w, state⟩ := follows.state
  dsimp only
  rw [follows.result, state]
  exact ⟨bounded, coherent.resid, coherent.eval, rfl, rfl, rfl, rfl, rfl, rfl, rfl, rfl⟩

end Runs

namespace Pinned

abbrev pair : Dims := ⟨1, 1, 0⟩

/-- Minimize `x` subject to `x = 0`, from zero. -/
noncomputable def problem : Problem Extended Unit pair where
  variableBounds := pure (.good (single (infinite false), single (infinite true)))
  inequalityBounds := pure (.good (noEntries, noEntries))
  start := pure (.good (single 0))
  objective x _ := pure (.good (x.get ⟨0, Nat.one_pos⟩))
  gradient _ _ := pure (.good (single 1))
  equalities x _ := pure (.good (single (x.get ⟨0, Nat.one_pos⟩)))
  inequalities _ _ := pure (.good noEntries)
  equalityJacobian _ _ := pure (.good (single (single 1)))
  inequalityJacobian _ _ := pure (.good noEntries)
  providesHessian := true
  hessian _ _ _ _ _ := pure (.good (single (single 0)))

/-- Default parameters, but for a constant start of the constraint multipliers. -/
noncomputable def settings (y : Extended) : InteriorSettings Extended :=
  { (InteriorSettings.default : InteriorSettings Extended) with
    multiplierStart := .constant
    multiplierInit := y }

/-- Two options lead to these parameters. -/
theorem settings_configured {y : Extended} (number : (isFinite y || equals y infinity) = true) :
    (settings y).Configured := by
  have chosen : InteriorSettings.default.setOption "duals_initialization" (.text "constant") =
      .ok { (InteriorSettings.default : InteriorSettings Extended) with
        multiplierStart := .constant } := rfl
  have valued (s : InteriorSettings Extended) :
      s.setOption "duals_init_value" (.numeric y) = .ok { s with multiplierInit := y } := by
    have passed : (OptionValue.numeric y).number "duals_init_value" = .ok y := if_pos number
    have stored : InteriorSettings.assignment "duals_init_value" (.numeric y) = (do
        let v ← (OptionValue.numeric y).number "duals_init_value"
        return fun s : InteriorSettings Extended => { s with multiplierInit := v }) := rfl
    rw [InteriorSettings.setOption, stored, passed]
    rfl
  exact .set (.set .unset chosen) (valued _)

noncomputable def bounds : Bounds Extended pair :=
  ⟨⟨single ⟨infinite false, false⟩, single ⟨infinite true, false⟩⟩, ⟨noEntries, noEntries⟩, 0⟩

noncomputable def setup (y : Extended) : Setup Extended Unit pair := ⟨problem, settings y, bounds⟩

noncomputable def engine (y : Extended) : Engine Extended Unit pair :=
  ⟨setup y, .initial (settings y) true ⟨(), []⟩⟩

theorem bounds_of_raw (rule : Bounds.FixedRule Extended) :
    Bounds.ofRaw rule #v[infinite false] #v[infinite true] #v[] #v[] = .ok bounds := by
  have absent (p : Bool) : isFiniteBound (infinite p) = false := rfl
  have apart : rule.coincide (infinite false) (infinite true) = false :=
    Bounds.FixedRule.coincide_of_absent (.inl (absent false))
  have ordered : ¬infinite true < infinite false := nofun
  rw [Bounds.ofRaw_single (Bounds.variableFault_eq_none_iff.mpr ⟨Extended.isUndefined_infinite _,
    Extended.isUndefined_infinite _, ordered, fun _ => apart⟩) apart]
  simp [Bounds.literal, Bound.of, absent, bounds]

theorem created (y : Extended) :
    (Engine.create problem (settings y)).outcome ⟨(), []⟩ = (.ok (engine y), ⟨(), []⟩) := by
  have queried : (Bounds.ofProblem problem (.ofSettings (settings y))).run () = (.ok bounds, ()) := by
    rw [← bounds_of_raw (.ofSettings (settings y))]
    rfl
  have unmoved (factor : Extended) : bounds.relax factor = bounds := by
    unfold Bounds.relax
    split
    · rfl
    · simp [bounds, Box.widened, Bound.moved]
  exact Engine.create_unmoved rfl queried rfl (unmoved _) rfl

noncomputable def values : Evaluation Extended pair :=
  ⟨0, single 0, noEntries, single 1, single (single 1), noEntries⟩

/-- Nothing of a bound is counted. -/
theorem unheld {β : Type} (l : List β) :
    masked l bounds.x.hasLower = [] ∧ masked l bounds.x.hasUpper = [] ∧
      masked l bounds.s.hasLower = [] ∧ masked l bounds.s.hasUpper = [] := by
  have one (l : List β) : masked l [false] = [] := by
    cases l with
    | nil => rfl
    | cons a l => cases l <;> rfl
  have none (l : List β) : masked l [] = [] := by
    cases l <;> rfl
  exact ⟨one l, one l, none l, none l⟩

/-- The gradient of the Lagrangian at zero. -/
theorem slope {y : Extended} (nonzero : equals y 0 = false) (yd : Vector Extended 0)
    (zl zu : Vector Extended 1) :
    (Block.pull bounds.x (values.lagrangianGradient #v[y] yd) zl zu).toList = [1 + 1 * y] := by
  rw [yd.eq_empty]
  simp [Block.pull, pulled, bounds, values, Evaluation.lagrangianGradient,
    Dense.addTransposeProduct, nonzero, Vector.get, Vector.toList_ofFn]

/-- The starting multiplier enters the optimality error and its scaling. -/
theorem errors {it : Iterate Extended pair} {y : Extended} (multiplier : it.yc = #v[y])
    (nonzero : equals y 0 = false) (mu pSmax : Extended) :
    let r := Residual.compute it values bounds mu pSmax
    r.nlpOptim = maxNum (maxNum 0 (magnitude (1 + 1 * y))) 0 ∧
      r.nlpOverall = maxNum (maxNum (r.nlpOptim /
        (maxNum pSmax ((0 + magnitude y + 0 + 0) / 1) / pSmax)) 0) 0 := by
  have empty (v : Vector Extended 0) : v.toList = [] := by
    rw [v.eq_empty]
    rfl
  let r := Residual.compute it values bounds mu pSmax
  have optim : r.nlpOptim = maxNum (maxNum 0 (magnitude (1 + 1 * y))) 0 := by
    simp only [r, Residual.compute, Residual.withBarrier, multiplier, slope nonzero, empty]
    rfl
  have overall : r.nlpOverall = maxNum (maxNum (r.nlpOptim /
      (maxNum pSmax ((-0 + magnitude y + -0 + (-0 + -0 + -0 + -0)) / ((1 : Nat) : Extended)) /
        pSmax)) (maxNum (maxNum 0 (magnitude 0)) 0)) (maxNum (maxNum (maxNum 0 0) 0) 0 / 1) := by
    rw [optim]
    simp only [r, Residual.compute, Residual.withBarrier, multiplier, slope nonzero, empty,
      complementarity, maskedComplementarity, maskedOneNorm, unheld, multiplierScale]
    rfl
  have feasible : maxNum (maxNum 0 (magnitude 0)) 0 = (0 : Extended) := by
    simp [Extended.zero_eq]
  have complementary : maxNum (maxNum (maxNum 0 0) 0) 0 / 1 = (0 : Extended) := by
    simp [Extended.zero_eq, Extended.one_eq, Extended.finite_div]
  have unsigned : (-0 : Extended) = 0 ∧ (0 + 0 + 0 + 0 : Extended) = 0 := by
    simp [Extended.zero_eq]
  have single : ((1 : Nat) : Extended) = 1 := by
    simp [Extended.natCast_eq, Extended.one_eq]
  rw [feasible, complementary, unsigned.1, unsigned.2, single] at overall
  exact ⟨optim, overall⟩

open scoped Linear.Exact

theorem hundred : (100.0 : Extended) = finite 100 := by
  rw [Extended.ofScientific_eq]
  norm_num

/-- A run that finds no error at its start ends there. -/
theorem run_of_solved {y : Extended} (solved : ∀ (it : Iterate Extended pair) (mu : Extended),
      it.yc = #v[y] → (Residual.compute it values bounds mu (finite 100)).nlpOverall = finite 0) :
    ((engine y).run Observer.silent ()).1.status = .success ∧
      ∃ (it : Iterate Extended pair) (mu : Extended), it.yc = #v[y] ∧
        ((engine y).run Observer.silent ()).1.info.errOptim =
          (Residual.compute it values bounds mu (finite 100)).nlpOptim := by
  obtain ⟨first, started, multiplier, at_zero⟩ : ∃ first,
      (startingProcedure (setup y)).outcome (engine y).opened = (.ok (), first) ∧
        first.curr.yc = #v[y] ∧ first.eval = values := ⟨_, rfl, rfl, rfl⟩
  have coherent := State.Coherent.of_start started
  have resid : first.resid = .compute first.curr values bounds first.mu (finite 100) := by
    rw [← at_zero, ← hundred]
    exact coherent.resid
  obtain ⟨w, headed⟩ := first.headed_eq (setup y)
  have verdict : (first.headed (setup y)).checked.1 = some .success := by
    obtain ⟨errors, count, termination⟩ := coherent.termination
    rw [headed, State.checked, termination]
    refine Termination.check_success_iff.mpr fun e single => ?_
    have small : finite 0 ≤ 1e-8 := by
      rw [Extended.ofScientific_eq, Extended.finite_le]
      norm_num
    rw [List.mem_singleton.mp single, resid, solved first.curr first.mu multiplier]
    exact small
  have course : Course (setup y) Observer.silent ((setup y).settings.maxIter + 1)
      (first.headed (setup y)) () [] _ _ () := .decided verdict
  have follows := Engine.Follows.of_course (e := engine y) started course
  refine ⟨follows.status_eq, first.curr, first.mu, multiplier, ?_⟩
  rw [follows.result, headed, ← resid]
  rfl

/-- An infinite multiplier makes error and scaling infinite, and their quotient is not counted. -/
theorem errors_infinite {it : Iterate Extended pair} (multiplier : it.yc = #v[infinite true])
    (mu : Extended) : (Residual.compute it values bounds mu (finite 100)).nlpOptim = infinite true ∧
      (Residual.compute it values bounds mu (finite 100)).nlpOverall = finite 0 := by
  have nonzero : equals (infinite true) 0 = false := by
    have above : ¬infinite true ≤ (0 : Extended) := nofun
    simp [equals, above]
  have pulled : 1 + 1 * infinite true = infinite true := by
    change finite 1 + Extended.scaleInfinite true 1 = _
    rw [Extended.scaleInfinite, if_neg one_ne_zero, if_neg (by norm_num)]
    rfl
  have total : (0 + magnitude (infinite true) + 0 + 0) / 1 = infinite true :=
    Extended.infinite_div_finite true one_pos
  have magnified : magnitude (infinite true) = infinite true := rfl
  have quotient : infinite true / infinite true = Extended.undefined := rfl
  obtain ⟨optim, overall⟩ := errors multiplier nonzero mu (finite 100)
  rw [pulled, magnified, Extended.zero_eq, Extended.maxNum_infinite,
    Extended.infinite_maxNum] at optim
  rw [optim, total, Extended.maxNum_infinite,
    Extended.infinite_div_finite true (by norm_num), quotient, Extended.undefined_maxNum,
    Extended.zero_eq, Extended.maxNum_finite, max_self] at overall
  exact ⟨optim, overall⟩

/-- The multiplier of the solution leaves no error. -/
theorem errors_solved {it : Iterate Extended pair} (multiplier : it.yc = #v[finite (-1)])
    (mu : Extended) : (Residual.compute it values bounds mu (finite 100)).nlpOverall = finite 0 := by
  have nonzero : equals (finite (-1)) 0 = false := by
    rw [Extended.zero_eq, Extended.equals_finite, equals_real]
    norm_num
  obtain ⟨optim, overall⟩ := errors multiplier nonzero mu (finite 100)
  simp only [Extended.zero_eq, Extended.one_eq, Extended.finite_mul, Extended.finite_add,
    Extended.magnitude_finite, Extended.maxNum_finite] at optim
  simp only [optim, Extended.zero_eq, Extended.one_eq, Extended.finite_add,
    Extended.magnitude_finite] at overall
  rw [overall, Extended.finite_div _ one_ne_zero, Extended.maxNum_finite,
    Extended.finite_div _ (by norm_num), Extended.finite_div _ (by norm_num)]
  norm_num

end Pinned

open scoped Linear.Exact

/-- An infinite constant start of the multipliers, set by two options, ends a run at once: with
success, and with an infinite optimality error. -/
theorem pinned_infinite_error :
    (Pinned.settings (infinite true)).Configured ∧
      (Engine.create Pinned.problem (Pinned.settings (infinite true))).outcome ⟨(), []⟩ =
        (.ok (Pinned.engine (infinite true)), ⟨(), []⟩) ∧
      ((Pinned.engine (infinite true)).run Observer.silent ()).1.status = .success ∧
      ¬isFinite ((Pinned.engine (infinite true)).run Observer.silent ()).1.info.errOptim = true := by
  obtain ⟨success, it, mu, multiplier, error⟩ := Pinned.run_of_solved (y := infinite true)
    fun _ mu multiplier => (Pinned.errors_infinite multiplier mu).2
  have largest : equals (infinite true) infinity = true := by
    have self : infinite true ≤ infinite true := .inr rfl
    simp [equals, infinity, self]
  refine ⟨Pinned.settings_configured ?_, Pinned.created _, success, ?_⟩
  · rw [largest, Bool.or_true]
  · rw [error, (Pinned.errors_infinite multiplier mu).1]
    exact Bool.false_ne_true

/-- From the multiplier of the solution the same run succeeds with errors that are finite. -/
theorem pinned_errors_finite :
    (Pinned.settings (finite (-1))).Configured ∧ (Pinned.settings (finite (-1))).StartsReal ∧
      ((Pinned.engine (finite (-1))).run Observer.silent ()).1.status = .success ∧
      isFinite ((Pinned.engine (finite (-1))).run Observer.silent ()).1.info.errOptim = true := by
  obtain ⟨success, -⟩ := Pinned.run_of_solved (y := finite (-1))
    fun _ mu multiplier => Pinned.errors_solved multiplier mu
  have reached := Pinned.settings_configured (y := finite (-1)) rfl
  have real : (Pinned.settings (finite (-1))).StartsReal := ⟨rfl, rfl, fun _ => rfl⟩
  obtain ⟨bounded, -, -, error, -⟩ := success_errors_finite reached real (Pinned.created _) rfl
    Observer.silent () success
  exact ⟨reached, real, success, error ▸ bounded.optim⟩

end Barrier

end SmoothOpt
