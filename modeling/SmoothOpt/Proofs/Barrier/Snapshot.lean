import Mathlib
import SmoothOpt.Proofs.Barrier.Halfway
import SmoothOpt.Proofs.Problem.Functions

/-!
Everything a run shows belongs to one point.

For callbacks that compute functions of the point, the answers an evaluation holds are the values of
these functions. So in every report, and in the state of every run that no failure ended, the
evaluation, the residuals and the fraction-to-boundary parameter are functions of the iterate and of
the barrier parameter, and the figures told to the observer and to the caller are read off them.
Nothing of a rejected trial or of the point before is left.
-/
namespace SmoothOpt

open Scalar Linear

variable {α σ : Type} [Scalar α] {d : Dims} {F : Functions α d}

namespace Barrier

variable {ω : Type} {c : Setup α σ d} {s : State α σ d}

def Setup.residual (c : Setup α σ d) (F : Functions α d) (it : Iterate α d) (mu : α) :
    Residual α d :=
  .compute it (F.evaluation it.x.point) c.bounds mu c.settings.pSmax

/-- What is stored beside the iterate and the barrier parameter is what they determine. -/
structure State.Determined (s : State α σ d) (c : Setup α σ d) (F : Functions α d) : Prop where
  eval : s.eval = F.evaluation s.curr.x.point
  resid : s.resid = c.residual F s.curr s.mu
  tau : s.tau = c.schedule.tau s.mu

theorem State.Coherent.determined (h : s.Coherent c) (computes : c.problem.Computes F) :
    s.Determined c F := by
  have eval := h.eval.eq_evaluation computes
  refine ⟨eval, ?_, h.tau⟩
  rw [h.resid, Setup.residual, eval]

/-- The figures told to an observer are those of an iterate and a barrier parameter. -/
structure Setup.Shows (c : Setup α σ d) (F : Functions α d) (info : IterationInfo α)
    (it : Iterate α d) (mu : α) : Prop where
  obj : info.obj = F.objective it.x.point
  phi : info.phi = barrierObjective (F.evaluation it.x.point) it c.bounds mu
  errOverall : info.errOverall = (c.residual F it mu).nlpOverall
  errFeas : info.errFeas = (c.residual F it mu).nlpFeas
  errOptim : info.errOptim = (c.residual F it mu).nlpOptim
  mu : info.mu = mu

/-- A result holds an iterate with its objective and errors. -/
structure Setup.Returns (c : Setup α σ d) (F : Functions α d) (res : SolveResult α d)
    (it : Iterate α d) (mu : α) : Prop where
  x : res.x = it.x.point
  yc : res.yc = it.yc
  yd : res.yd = it.yd
  zl : res.zl = it.x.multLo
  zu : res.zu = it.x.multHi
  obj : res.obj = F.objective it.x.point
  errOptim : res.info.errOptim = (c.residual F it mu).nlpOptim
  errFeas : res.info.errFeas = (c.residual F it mu).nlpFeas
  errComplem : res.info.errComplem = (c.residual F it mu).nlpComplem
  errOverall : res.info.errOverall = (c.residual F it mu).nlpOverall
  mu : res.info.mu = mu

theorem State.Determined.shows (h : s.Determined c F) : c.Shows F (s.info c) s.curr s.mu := by
  constructor <;> simp only [State.info, h.eval, h.resid, Functions.evaluation]

theorem State.Determined.returns (h : s.Determined c F) : c.Returns F s.result s.curr s.mu := by
  constructor <;> simp only [State.result, h.eval, h.resid, Functions.evaluation]

section Runs

variable [DenseSolver α]

/-- Every report of a run, and the state of every run that does not end with a failure, is
determined by its iterate and its barrier parameter, and what is told of it are its figures. -/
theorem run_shows_one_point (e : Engine α σ d) (computes : e.setup.problem.Computes F)
    (obs : Observer α d ω) (o : ω) :
    (∀ first, (startingProcedure e.setup).outcome e.opened = (.ok (), first) →
      ∃ reports ending last, e.Follows obs o first reports ending last ∧ ∀ r ∈ reports,
        r.Determined e.setup F ∧ e.setup.Shows F (r.info e.setup) r.curr r.mu) ∧
    ((e.run obs o).1.status.isFailure = false →
      let left := (e.run obs o).2.1.state
      left.Determined e.setup F ∧ e.setup.Returns F (e.run obs o).1 left.curr left.mu) := by
  refine ⟨?_, ?_⟩
  · intro first started
    obtain ⟨reports, ending, last, follows⟩ := e.run_follows obs o started
    refine ⟨reports, ending, last, follows, ?_⟩
    intro r member
    have determined := (follows.coherent_report member).determined computes
    exact ⟨determined, determined.shows⟩
  · intro regular
    obtain ⟨first, reports, last, follows⟩ := Engine.follows_of_regular regular
    have determined := follows.coherent_exit.determined computes
    obtain ⟨w, state⟩ := follows.state
    have left : (e.run obs o).2.1.state.Determined e.setup F := by
      rw [state]
      exact ⟨determined.eval, determined.resid, determined.tau⟩
    have returned : (e.run obs o).1 = (e.run obs o).2.1.state.result := by
      rw [follows.result, state]
      rfl
    refine ⟨left, ?_⟩
    rw [returned]
    exact left.returns

end Runs

open scoped Linear.Exact

namespace Halfway

noncomputable def functions : Functions ℝ trio where
  objective v := v.get ⟨0, Nat.one_pos⟩
  equalities v := single (v.get ⟨0, Nat.one_pos⟩)
  inequalities v := single (v.get ⟨0, Nat.one_pos⟩)
  gradient _ := single 1
  equalityJacobian _ := single (single 1)
  inequalityJacobian _ := single (single 1)

theorem computes (x : ℝ) : (problem x).Computes functions := by
  constructor <;> intro v newX w _ <;> rfl

end Halfway

/-- A run reports 200 and returns 100. -/
theorem halfway_shows_one_point : ∃ first r last,
    (Halfway.engine 200).Follows Observer.silent () first [r] (.ok .success) last ∧
      r.Determined (Halfway.setup 200) Halfway.functions ∧
      (r.info (Halfway.setup 200)).obj = 200 ∧
      ((Halfway.engine 200).run Observer.silent ()).1.x.get 0 = 100 ∧
      ((Halfway.engine 200).run Observer.silent ()).1.obj = 100 := by
  have large : (100 : ℝ) ≤ 200 := by norm_num
  obtain ⟨first, s, last, follows, -, h, midway, -⟩ := Halfway.run Exact.exactSolver_exact large
  obtain ⟨shown, exit⟩ := run_shows_one_point (Halfway.engine 200) (Halfway.computes 200)
    Observer.silent ()
  obtain ⟨reports, ending, last', follows', every⟩ := shown first follows.start
  obtain ⟨rfl, rfl, rfl⟩ := follows.unique follows'
  obtain ⟨determined, shows⟩ := every _ List.mem_cons_self
  obtain ⟨-, returns⟩ := exit (by rw [follows.status_eq]; rfl)
  have x : ((Halfway.engine 200).run Observer.silent ()).1.x.get 0 = 100 := by
    rw [follows.x_eq, midway.point]
    norm_num
  refine ⟨first, _, last', follows, determined, shows.obj.trans h.point, x, ?_⟩
  rw [returns.obj, ← returns.x]
  exact x

end Barrier

end SmoothOpt
