/-!
Computations that may fail and keep their state.

A step maps a state to a state together with a value or a failure. A failure does not undo the
changes made before it: what a solver had reached when it stopped is part of its answer.
-/
namespace SmoothOpt

/-- A computation on states `τ` that gives a `β` or fails with an `ε`. -/
abbrev Step (ε τ β : Type) := ExceptT ε (StateM τ) β

namespace Step

variable {ε ε' τ τ' β : Type}

/-- Run a step: its outcome and the state it leaves. -/
def outcome (s : Step ε τ β) (t : τ) : Except ε β × τ := s.run.run t

def ofOutcome (f : τ → Except ε β × τ) : Step ε τ β := ExceptT.mk f

/-- Run a step on a part of a larger state, and name its failures anew. -/
def within (part : τ → τ') (put : τ' → τ → τ) (rename : ε' → ε) (s : Step ε' τ' β) :
    Step ε τ β :=
  ofOutcome fun t =>
    let (r, t') := s.outcome (part t)
    (r.mapError rename, put t' t)

end Step

end SmoothOpt
