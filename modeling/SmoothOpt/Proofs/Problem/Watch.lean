import SmoothOpt.Problem.Trace
import SmoothOpt.Proofs.Problem.Answer

/-!
Watching the answers of a problem.

A solver has two places for the values of a point: that of its current point and that of its trials.
A callback writes over what its place holds, so whether it gave finite values depends on the place.
A watched problem keeps a copy of both places next to its memory and notes for every evaluation
whether it succeeded and whether its place held finite values afterwards. Which place an answer goes
to follows from the order of the calls: an objective after derivatives is the first trial, a
gradient after trials is taken at the new point.
-/
namespace SmoothOpt

open Scalar Linear

variable {α σ : Type} {d : Dims}

/-- What became of one evaluation: whether it succeeded, and whether its place was finite then. -/
structure Answer where
  what : Quantity
  ok : Bool
  finite : Bool
  deriving DecidableEq

/-- The evaluation neither failed nor left a value that is not finite. -/
def Answer.good (a : Answer) : Bool := a.ok && a.finite

inductive Watch.Phase where
  | starting
  /-- Derivatives at the current point. -/
  | standing
  /-- Values at trial points. -/
  | trying
  deriving DecidableEq

/-- The answers so far, oldest first, and a copy of the two places: the one written to and the other
one. -/
structure Watch (α : Type) (d : Dims) where
  answers : List Answer
  active : Evaluation α d
  spare : Evaluation α d
  phase : Watch.Phase

namespace Watch

def fresh [Scalar α] : Watch α d := ⟨[], .blank, .blank, .standing⟩

/-- Write to the other place from now on. -/
def swap (w : Watch α d) : Watch α d := { w with active := w.spare, spare := w.active }

/-- A starting point goes to the place of the current point. -/
def restart (w : Watch α d) : Watch α d :=
  { (if w.phase = .trying then w.swap else w) with phase := .starting }

/-- An objective at another point than the current one goes to the place of the trials. -/
def approach (w : Watch α d) : Watch α d :=
  if w.phase = .standing then { w.swap with phase := .trying } else w

/-- With its gradient a point becomes the current one, and so does its place. -/
def arrive (w : Watch α d) : Watch α d := { w with phase := .standing }

/-- Jacobians are written over zero matrices. -/
def clear [Scalar α] (w : Watch α d) : Watch α d := { w with active := w.active.clearJacobians }

def hear (w : Watch α d) (a : Answer) : Watch α d := { w with answers := w.answers ++ [a] }

end Watch

namespace Problem

variable {β : Type}

/-- Make a call and note its answer, written over what the active place holds. -/
def watching (what : Quantity) (before : Watch α d → Watch α d) (read : Evaluation α d → β)
    (store : β → Evaluation α d → Evaluation α d) (finite : β → Bool) (m : StateM σ (Reply β)) :
    StateM (σ × Watch α d) (Reply β) := fun (s, w) =>
  let (reply, s') := m.run s
  let w := before w
  let v := reply.onto (read w.active)
  (reply, (s', { w with active := store v w.active }.hear ⟨what, reply.ok, finite v⟩))

def watched [Scalar α] (p : Problem α σ d) : Problem α (σ × Watch α d) d :=
  { (p.besides : Problem α (σ × Watch α d) d) with
    start := fun (s, w) =>
      let (reply, s') := p.start.run s
      (reply, (s', w.restart))
    objective := fun x newX => watching .objective Watch.approach (·.f)
      (fun v e => { e with f := v }) isFinite (p.objective x newX)
    equalities := fun x newX => watching .equalities id (·.eq) (fun v e => { e with eq := v })
      (fun v => allFinite v.toList) (p.equalities x newX)
    inequalities := fun x newX => watching .inequalities id (·.ineq)
      (fun v e => { e with ineq := v }) (fun v => allFinite v.toList) (p.inequalities x newX)
    gradient := fun x newX => watching .gradient Watch.arrive (·.grad)
      (fun v e => { e with grad := v }) (fun v => allFinite v.toList) (p.gradient x newX)
    equalityJacobian := fun x newX => watching .equalityJacobian Watch.clear (·.jacEq)
      (fun v e => { e with jacEq := v }) (fun v => allFinite v.entries) (p.equalityJacobian x newX)
    inequalityJacobian := fun x newX => watching .inequalityJacobian id (·.jacIneq)
      (fun v e => { e with jacIneq := v }) (fun v => allFinite v.entries)
      (p.inequalityJacobian x newX)
    hessian := fun x newX weight yc yd (s, w) =>
      let (reply, s') := (p.hessian x newX weight yc yd).run s
      (reply, (s', w.hear ⟨.hessian, reply.ok, allFinite (reply.onto Dense.zeros).entries⟩)) }

end Problem

namespace Watch

variable {log : List Answer} {w : Watch α d} {a : Answer}

def Clean (log : List Answer) (w : Watch α d) : Prop :=
  ∃ answers, w.answers = log ++ answers ∧ ∀ a ∈ answers, a.good = true

/-- The last answer was not good, and every other one since `log` was. -/
def Failed (log : List Answer) (w : Watch α d) : Prop :=
  ∃ answers a, w.answers = log ++ (answers ++ [a]) ∧ (∀ b ∈ answers, b.good = true) ∧
    a.good = false

theorem Clean.of_same (same : w.answers = log) : w.Clean log :=
  ⟨[], by rw [same, List.append_nil], nofun⟩

theorem Clean.hear_good (clean : w.Clean log) (good : a.good = true) : (w.hear a).Clean log := by
  obtain ⟨answers, noted, all⟩ := clean
  refine ⟨answers ++ [a], ?_, fun b member => ?_⟩
  · rw [hear, noted, List.append_assoc]
  · rcases List.mem_append.mp member with earlier | last
    · exact all b earlier
    · rw [List.mem_singleton.mp last]
      exact good

theorem Clean.hear_bad (clean : w.Clean log) (bad : a.good = false) : (w.hear a).Failed log := by
  obtain ⟨answers, noted, all⟩ := clean
  refine ⟨answers, a, ?_, all, bad⟩
  rw [hear, noted, List.append_assoc]

structure Placed (w : Watch α d) (phase : Phase) (active spare : Evaluation α d) : Prop where
  phase : w.phase = phase
  active : w.active = active
  spare : w.spare = spare

/-- The places hold `active` and `spare`, and nothing has failed since `log`. -/
structure Well (w : Watch α d) (log : List Answer) (phase : Phase) (active spare : Evaluation α d) :
    Prop extends w.Placed phase active spare where
  clean : w.Clean log

/-- The places hold `active` and `spare`, and the last answer was not good. -/
structure Ill (w : Watch α d) (log : List Answer) (phase : Phase) (active spare : Evaluation α d) :
    Prop extends w.Placed phase active spare where
  failed : w.Failed log

/-- One place is that of the current point, holding `eval`, and the other that of the trials. -/
def Copies (w : Watch α d) (eval trial : Evaluation α d) : Prop :=
  w.Placed .trying trial eval ∨ ∃ phase, phase ≠ .trying ∧ w.Placed phase eval trial

variable {eval trial : Evaluation α d}

theorem Copies.restart (copies : w.Copies eval trial) :
    w.restart.Placed .starting eval trial := by
  obtain ⟨phase, active, spare⟩ | ⟨phase, other, here, active, spare⟩ := copies
  · simp only [Watch.restart, phase, if_true]
    exact ⟨rfl, spare, active⟩
  · simp only [Watch.restart, here, other, if_false]
    exact ⟨rfl, active, spare⟩

theorem Placed.approach (placed : w.Placed .standing eval trial) :
    w.approach.Placed .trying trial eval := by
  simp only [Watch.approach, placed.phase, if_true]
  exact ⟨rfl, placed.spare, placed.active⟩

theorem approach_of_ne (other : w.phase ≠ .standing) : w.approach = w := if_neg other

theorem approach_answers (w : Watch α d) : w.approach.answers = w.answers := by
  unfold Watch.approach
  split <;> rfl

/-- Before a trial as well as after it the places are the same. -/
theorem Placed.copies_of_approach (placed : w.approach.Placed .trying trial eval) :
    w.Copies eval trial := by
  by_cases standing : w.phase = .standing
  · simp only [Watch.approach, standing, if_true] at placed
    exact .inr ⟨.standing, by decide, standing, placed.spare, placed.active⟩
  · rw [approach_of_ne standing] at placed
    exact .inl placed

/-- What a failure tells about the answers: an evaluation failed, or none did. -/
def Told (log : List Answer) (w : Watch α d) : Failure α → Prop
  | .evaluation _ => w.Failed log
  | _ => w.Clean log

end Watch

namespace Evaluation

open Watch (Well Ill)

/-- A watched call is judged as the solver judges it, over the same values. -/
theorem ask_watched {β : Type} (log : List Answer) (phase : Watch.Phase) (spare : Evaluation α d)
    (what : Quantity) (before : Watch α d → Watch α d) (read : Evaluation α d → β)
    (store : β → Evaluation α d → Evaluation α d) (finite : β → Bool) (m : StateM σ (Reply β)) :
    Step.Ensures (fun t => (before t.2.2).Well log phase t.1 spare)
      (ask what (Problem.watching what before read store finite m) read store finite)
      (fun _ t => t.2.2.Well log phase t.1 spare) fun t => t.2.2.Ill log phase t.1 spare := by
  rintro ⟨e, s, w⟩ ⟨⟨here, same, other⟩, clean⟩
  obtain rfl : (before w).active = e := same
  rw [outcome_ask]
  let v := (m.run s).1.onto (read (before w).active)
  let w' : Watch α d := { before w with active := store v (before w).active }
  have replied : (Problem.watching what before read store finite m).run (s, w) =
      ((m.run s).1, ((m.run s).2, w'.hear ⟨what, (m.run s).1.ok, finite v⟩)) := rfl
  have kept : w'.Clean log := clean
  rw [replied]
  by_cases good : ((m.run s).1.ok && finite v) = true
  · simp only [good, v, if_true]
    exact ⟨⟨here, rfl, other⟩, kept.hear_good good⟩
  · simp only [good, v]
    exact ⟨⟨here, rfl, other⟩, kept.hear_bad (Bool.eq_false_iff.mpr good)⟩

variable [Scalar α] (p : Problem α σ d) (log : List Answer)

/-- Objective and constraint bodies. -/
theorem funcs_watched (phase : Watch.Phase) (spare : Evaluation α d) (x : Vector α d.n) :
    Step.Ensures (fun t => t.2.2.approach.Well log phase t.1 spare) (funcs p.watched x)
      (fun _ t => t.2.2.Well log phase t.1 spare) fun t => t.2.2.Ill log phase t.1 spare := by
  have objective := ask_watched log phase spare .objective
    Watch.approach (·.f) (fun v e => { e with f := v }) isFinite (p.objective x true)
  have equalities := ask_watched log phase spare .equalities id
    (·.eq) (fun v e => { e with eq := v }) (fun v => allFinite v.toList) (p.equalities x false)
  have inequalities := ask_watched log phase spare .inequalities id
    (·.ineq) (fun v e => { e with ineq := v }) (fun v => allFinite v.toList)
    (p.inequalities x false)
  exact objective.bind fun _ => equalities.bind fun _ => inequalities

/-- Gradient and Jacobians. -/
theorem derivs_watched (spare : Evaluation α d) (x : Vector α d.n) :
    Step.Ensures (fun t => t.2.2.arrive.Well log .standing t.1 spare) (derivs p.watched x)
      (fun _ t => t.2.2.Well log .standing t.1 spare)
      fun t => t.2.2.Ill log .standing t.1 spare := by
  have gradient := ask_watched log .standing spare .gradient
    Watch.arrive (·.grad) (fun v e => { e with grad := v }) (fun v => allFinite v.toList)
    (p.gradient x false)
  have equalityJacobian := ask_watched log .standing spare
    .equalityJacobian Watch.clear (·.jacEq) (fun v e => { e with jacEq := v })
    (fun v => allFinite v.entries) (p.equalityJacobian x false)
  have inequalityJacobian := ask_watched log .standing spare
    .inequalityJacobian id (·.jacIneq) (fun v e => { e with jacIneq := v })
    (fun v => allFinite v.entries) (p.inequalityJacobian x false)
  refine gradient.bind fun _ => Step.Ensures.bind
    (Q := fun _ t => t.2.2.clear.Well log .standing t.1 spare) (.modify ?_) fun _ =>
      equalityJacobian.bind fun _ => inequalityJacobian
  rintro ⟨e, s, w⟩ ⟨⟨here, same, other⟩, clean⟩
  exact ⟨⟨here, congrArg clearJacobians same, other⟩, clean⟩

/-- Everything at a starting point. -/
theorem all_watched (spare : Evaluation α d) (x : Vector α d.n) :
    Step.Ensures (fun t => t.2.2.Well log .starting t.1 spare) (all p.watched x)
      (fun _ t => t.2.2.Well log .standing t.1 spare)
      fun t => t.2.2.Copies t.1 spare ∧ t.2.2.Failed log := by
  have values : Step.Ensures (fun t => t.2.2.Well log .starting t.1 spare) (funcs p.watched x)
      (fun _ t => t.2.2.arrive.Well log .standing t.1 spare)
      fun t => t.2.2.Copies t.1 spare ∧ t.2.2.Failed log := by
    refine (funcs_watched p log .starting spare x).weaken (fun t well => ?_) (fun _ t well => ?_) fun t ill => ?_
    · rwa [Watch.approach_of_ne (by rw [well.phase]; decide)]
    · exact ⟨⟨rfl, well.active, well.spare⟩, well.clean⟩
    · exact ⟨.inr ⟨_, by decide, ill.toPlaced⟩, ill.failed⟩
  refine values.bind fun _ => (derivs_watched p log spare x).weaken (fun _ => id) (fun _ _ => id) ?_
  intro t ill
  exact ⟨.inr ⟨_, by decide, ill.toPlaced⟩, ill.failed⟩

end Evaluation

end SmoothOpt
