import SmoothOpt.Barrier.Engine
import SmoothOpt.Proofs.Linear.Entries
import SmoothOpt.Proofs.Step

/-!
Absent bounds.

An absent bound keeps a value, but a run asks whether a bound is present before it reads the value.
Bounds may therefore be told with the absent ones at infinity: every quantity of the method is the
same for them, and so is every run.
-/
namespace SmoothOpt

open Scalar Linear

variable {α : Type}

/-- A bound as it is told: an absent one stands at `far`. -/
def Bound.told (b : Bound α) (far : α) : Bound α :=
  ⟨if b.present then b.value else far, b.present⟩

variable [Scalar α] {n : Nat} {d : Dims}

/-- A box as it is told: absent bounds stand at infinity. -/
def Box.told (b : Box α n) : Box α n where
  lower := b.lower.map (·.told (-infinity))
  upper := b.upper.map (·.told infinity)

def Bounds.told (b : Bounds α d) : Bounds α d := ⟨b.x.told, b.s.told, b.relaxedFixed⟩

section Quantities

omit [Scalar α] in
@[simp] theorem Bound.told_present (b : Bound α) (far : α) : (b.told far).present = b.present := rfl

omit [Scalar α] in
theorem Bound.told_value {b : Bound α} (present : b.present = true) (far : α) :
    (b.told far).value = b.value := if_pos present

@[simp] theorem Box.told_lower_get (b : Box α n) (i : Fin n) :
    b.told.lower.get i = (b.lower.get i).told (-infinity) := Vector.get_map ..

@[simp] theorem Box.told_upper_get (b : Box α n) (i : Fin n) :
    b.told.upper.get i = (b.upper.get i).told infinity := Vector.get_map ..

@[simp] theorem Box.hasLower_told (b : Box α n) : b.told.hasLower = b.hasLower := by
  simp [Box.hasLower, Box.told, Vector.toList_map, Function.comp_def]

@[simp] theorem Box.hasUpper_told (b : Box α n) : b.told.hasUpper = b.hasUpper := by
  simp [Box.hasUpper, Box.told, Vector.toList_map, Function.comp_def]

@[simp] theorem Bounds.count_told (b : Bounds α d) : b.told.count = b.count := by
  simp [Bounds.count, Bounds.told, Box.count]

/-- A point is pushed away from present bounds only. -/
@[simp] theorem Box.pushInside_told (b : Box α n) (kappa1 kappa2 : α) (v : Vector α n) :
    b.told.pushInside kappa1 kappa2 v = b.pushInside kappa1 kappa2 v := by
  have told (lo hi : Bound α) (v : α) :
      SmoothOpt.pushInside kappa1 kappa2 (lo.told (-infinity)) (hi.told infinity) v =
        SmoothOpt.pushInside kappa1 kappa2 lo hi v := by
    obtain ⟨l, _ | _⟩ := lo <;> obtain ⟨h, _ | _⟩ := hi <;> rfl
  simp only [Box.pushInside, Box.told_lower_get, Box.told_upper_get, told]

variable (k : Block α n) (step : BlockStep α n) (b : Box α n)

/-- Distances are measured to present bounds only. -/
@[simp] theorem Block.withSlacks_told (floor : α) :
    k.withSlacks b.told floor = k.withSlacks b floor := by
  have lower (i : Fin n) :
      (if (b.lower.get i).present
        then maxNum (k.point.get i - ((b.lower.get i).told (-infinity)).value) floor else 0) =
      if (b.lower.get i).present
        then maxNum (k.point.get i - (b.lower.get i).value) floor else 0 := by
    split
    · rw [Bound.told_value ‹_›]
    · rfl
  have upper (i : Fin n) :
      (if (b.upper.get i).present
        then maxNum (((b.upper.get i).told infinity).value - k.point.get i) floor else 0) =
      if (b.upper.get i).present
        then maxNum ((b.upper.get i).value - k.point.get i) floor else 0 := by
    split
    · rw [Bound.told_value ‹_›]
    · rfl
  simp only [Block.withSlacks, Box.told_lower_get, Box.told_upper_get, Bound.told_present, lower,
    upper]

@[simp] theorem Block.withMultipliers_told (value : α) :
    k.withMultipliers b.told value = k.withMultipliers b value := by
  simp only [Block.withMultipliers, Box.told, Vector.map_map]
  rfl

@[simp] theorem Block.moved_told (alpha : α) :
    k.moved step b.told alpha = k.moved step b alpha := by
  simp [Block.moved]

@[simp] theorem Block.multipliersMoved_told (alpha : α) :
    k.multipliersMoved step b.told alpha = k.multipliersMoved step b alpha := by
  simp [Block.multipliersMoved, movedWhere]

@[simp] theorem Block.multipliersClipped_told (mu kappa : α) :
    k.multipliersClipped b.told mu kappa = k.multipliersClipped b mu kappa := by
  simp [Block.multipliersClipped]

@[simp] theorem Block.diagonal_told : k.diagonal b.told = k.diagonal b := by
  simp [Block.diagonal]

@[simp] theorem Block.completeStep_told (mu : α) (dv : Vector α n) :
    k.completeStep b.told mu dv = k.completeStep b mu dv := by
  simp [Block.completeStep]

@[simp] theorem Block.pull_told (base lo hi : Vector α n) :
    Block.pull b.told base lo hi = Block.pull b base lo hi := by
  simp [Block.pull, pulled]

end Quantities

section Measures

variable (it : Iterate α d) (e : Evaluation α d) (dir : Direction α d) (b : Bounds α d)

@[simp] theorem complementarity_told (mu : α) :
    complementarity it b.told mu = complementarity it b mu := by
  simp [complementarity, Bounds.told]

@[simp] theorem Residual.withBarrier_told (r : Residual α d) (mu : α) :
    r.withBarrier it b.told mu = r.withBarrier it b mu := by
  simp [Residual.withBarrier]

@[simp] theorem Residual.compute_told (mu pSmax : α) :
    Residual.compute it e b.told mu pSmax = Residual.compute it e b mu pSmax := by
  simp only [Residual.compute, withBarrier_told, complementarity_told, Bounds.count_told]
  simp only [Bounds.told, Block.pull_told, Box.hasLower_told, Box.hasUpper_told]

@[simp] theorem barrierObjective_told (mu : α) :
    barrierObjective e it b.told mu = barrierObjective e it b mu := by
  simp [barrierObjective, Bounds.told]

@[simp] theorem barrierSlope_told (mu : α) :
    barrierSlope e it dir b.told mu = barrierSlope e it dir b mu := by
  simp [barrierSlope, Block.barrierPull, Bounds.told]

@[simp] theorem barrierGradients_told (mu : α) :
    barrierGradients e it b.told mu = barrierGradients e it b mu := by
  simp [barrierGradients, Block.barrierPull, Bounds.told]

@[simp] theorem Iterate.withSlacks_told (floor : α) :
    it.withSlacks b.told floor = it.withSlacks b floor := by
  simp [Iterate.withSlacks, Bounds.told]

@[simp] theorem Iterate.withMultipliers_told (value : α) :
    it.withMultipliers b.told value = it.withMultipliers b value := by
  simp [Iterate.withMultipliers, Bounds.told]

@[simp] theorem Iterate.maxPrimalStep_told (tau : α) :
    it.maxPrimalStep dir b.told tau = it.maxPrimalStep dir b tau := by
  simp [Iterate.maxPrimalStep, Bounds.told]

@[simp] theorem Iterate.maxDualStep_told (tau : α) :
    it.maxDualStep dir b.told tau = it.maxDualStep dir b tau := by
  simp [Iterate.maxDualStep, Bounds.told]

@[simp] theorem Iterate.trial_told (alpha : α) :
    it.trial dir b.told alpha = it.trial dir b alpha := by
  simp [Iterate.trial, Bounds.told]

@[simp] theorem Iterate.takeBoundStep_told (alpha : α) :
    it.takeBoundStep dir b.told alpha = it.takeBoundStep dir b alpha := by
  simp [Iterate.takeBoundStep, Bounds.told]

@[simp] theorem Iterate.clip_told (mu kappa : α) :
    it.clip b.told mu kappa = it.clip b mu kappa := by
  simp [Iterate.clip, Bounds.told]

@[simp] theorem Direction.ofNewton_told (sol : Newton.Solution α d) (mu : α) :
    Direction.ofNewton sol it b.told mu = Direction.ofNewton sol it b mu := by
  simp [Direction.ofNewton, Bounds.told]

variable [DenseSolver α]

@[simp] theorem lsqEstimate_told : lsqEstimate e it b.told = lsqEstimate e it b := by
  simp [lsqEstimate, unmatchedGradient, Bounds.told]

@[simp] theorem lsqStart_told (maxNorm : α) :
    lsqStart e it b.told maxNorm = lsqStart e it b maxNorm := by
  simp [lsqStart]

@[simp] theorem Iterate.startByLsq_told (maxNorm : α) :
    it.startByLsq e b.told maxNorm = it.startByLsq e b maxNorm := by
  simp [Iterate.startByLsq]

@[simp] theorem Iterate.refreshMultipliers_told (kind : MultiplierUpdate) (alpha : α) :
    it.refreshMultipliers kind e b.told dir alpha = it.refreshMultipliers kind e b dir alpha := by
  simp [Iterate.refreshMultipliers]

end Measures

namespace Barrier

variable {σ ω : Type} (c : Setup α σ d)

def Setup.told : Setup α σ d := { c with bounds := c.bounds.told }

theorem State.decreaseBarrier_told (budget : Nat) (s : State α σ d) :
    s.decreaseBarrier c.told budget = s.decreaseBarrier c budget := by
  have bounds : c.told.bounds = c.bounds.told := rfl
  induction budget generalizing s with
  | zero => rfl
  | succ budget ih =>
    simp only [State.decreaseBarrier, ih, bounds, Residual.withBarrier_told]
    rfl

variable [DenseSolver α]

theorem startingProcedure_told : startingProcedure c.told = startingProcedure c := by
  have settled (s : State α σ d) : s.settleStart c.told = s.settleStart c := by
    simp only [State.settleStart, State.startMultipliers, State.withResiduals, Setup.told,
      Iterate.withSlacks_told, Iterate.withMultipliers_told, Residual.compute_told, lsqStart_told,
      Iterate.startByLsq_told]
    simp only [Bounds.told, Box.pushInside_told]
    rfl
  have pushed (x : Vector α d.n) (kappa1 kappa2 : α) :
      c.told.bounds.x.pushInside kappa1 kappa2 x = c.bounds.x.pushInside kappa1 kappa2 x :=
    Box.pushInside_told ..
  unfold startingProcedure
  simp only [settled, pushed]
  rfl

theorem searchDirection_told : searchDirection c.told = searchDirection c := by
  have system (s : State α σ d) : s.newtonData c.told = s.newtonData c := by
    simp only [State.newtonData, Setup.told, barrierGradients_told]
    simp only [Bounds.told, Block.diagonal_told]
  have solved : newtonStep c.told = newtonStep c := by
    simp only [newtonStep, system]
    rfl
  have bounds : c.told.bounds = c.bounds.told := rfl
  unfold searchDirection
  simp only [solved, bounds, Direction.ofNewton_told]
  rfl

omit [DenseSolver α] in
theorem lineSearch_told (dir : Direction α d) (alphaMax : α) :
    lineSearch c.told dir alphaMax = lineSearch c dir alphaMax := by
  have bounds : c.told.bounds = c.bounds.told := rfl
  have trial (s : State α σ d) : measureTrial c.told s dir = measureTrial c s dir := by
    funext alpha
    simp only [measureTrial, bounds, Iterate.trial_told, barrierObjective_told]
    rfl
  have searched (s : State α σ d) :
      searchStep c.told s dir alphaMax = searchStep c s dir alphaMax := by
    simp only [searchStep, trial, State.measures, bounds, barrierObjective_told, barrierSlope_told]
  simp only [lineSearch, searched]

theorem advance_told : advance c.told = advance c := by
  have bounds : c.told.bounds = c.bounds.told := rfl
  have moved (s : State α σ d) (dir : Direction α d) (acc : Accepted α) (e : Evaluation α d)
      (alphaDual : α) : s.moveTo c.told dir acc e alphaDual = s.moveTo c dir acc e alphaDual := by
    simp only [State.moveTo, State.measures, bounds, barrierObjective_told, Iterate.trial_told,
      Iterate.takeBoundStep_told]
  have completed (s : State α σ d) (dir : Direction α d) (acc : Accepted α) (alphaDual : α) :
      s.complete c.told dir acc alphaDual = s.complete c dir acc alphaDual := by
    simp only [State.complete, State.withResiduals, bounds, Iterate.refreshMultipliers_told,
      Iterate.clip_told, Residual.compute_told]
    rfl
  unfold advance
  simp only [searchDirection_told, lineSearch_told, bounds, Iterate.maxPrimalStep_told,
    Iterate.maxDualStep_told, moved, completed]
  rfl

theorem passes_told (obs : Observer α d ω) (left : Nat) :
    passes c.told obs left = passes c obs left := by
  have updated (s : State α σ d) : s.updateBarrier c.told = s.updateBarrier c :=
    State.decreaseBarrier_told c _ s
  have shown (s : State α σ d) : s.info c.told = s.info c := by
    simp only [State.info, Setup.told, barrierObjective_told]
  have pass_eq : pass c.told obs = pass c obs := by
    simp only [pass, updated, shown, advance_told]
  induction left with
  | zero => rfl
  | succ left ih => simp only [passes, pass_eq, ih]

theorem outcome_told (obs : Observer α d ω) (s : State α σ d) (o : ω) :
    outcome c.told obs s o = outcome c obs s o := by
  have looped : iterations c.told obs = iterations c obs := by
    simp only [iterations, passes_told]
    rfl
  simp only [outcome, startingProcedure_told, looped]
  rfl

/-- A run does not depend on the values of absent bounds. -/
theorem Engine.run_told (s : State α σ d) (obs : Observer α d ω) (o : ω) :
    ((⟨c.told, s⟩ : Engine α σ d).run obs o).1 = ((⟨c, s⟩ : Engine α σ d).run obs o).1 := by
  have count : c.told.bounds.count = c.bounds.count := Bounds.count_told _
  simp only [Engine.run, outcome_told, count]
  rfl

end Barrier

end SmoothOpt
