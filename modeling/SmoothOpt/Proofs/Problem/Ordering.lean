import Mathlib
import SmoothOpt.Barrier.Engine
import SmoothOpt.Proofs.Linear.Entries
import SmoothOpt.Proofs.Settings.Range
import SmoothOpt.Proofs.Step

/-!
Validated bounds are ordered, and pushed points respect them.

A pair of bounds that passes validation is not crossed; moving a coinciding pair apart and widening
every bound only enlarges the range. A starting point pushed inside an ordered range lies in it.
-/
namespace SmoothOpt

open Scalar Linear

variable {n : Nat} {d : Dims}

/-- Where both bounds are present, the lower one does not exceed the upper one. -/
def Box.Ordered (b : Box ℝ n) : Prop :=
  ∀ i, (b.lower.get i).present = true → (b.upper.get i).present = true →
    (b.lower.get i).value ≤ (b.upper.get i).value

structure Bounds.Ordered (b : Bounds ℝ d) : Prop where
  x : b.x.Ordered
  s : b.s.Ordered

theorem Bound.moved_value_of_present {b : Bound ℝ} (present : b.present = true) (shift : ℝ) :
    (b.moved shift).value = b.value + shift * max |b.value| 1 := by
  simp [Bound.moved, present]

theorem Bound.moved_present {α : Type} [Scalar α] (b : Bound α) (shift : α) :
    (b.moved shift).present = b.present := by
  unfold Bound.moved
  split <;> rfl

theorem Box.Ordered.widened {b : Box ℝ n} (h : b.Ordered) {factor : ℝ} (nonneg : 0 ≤ factor) :
    (b.widened factor).Ordered := by
  intro i lower upper
  simp only [Box.widened, Vector.get_map, Bound.moved_present] at lower upper ⊢
  rw [Bound.moved_value_of_present lower, Bound.moved_value_of_present upper]
  have down : 0 ≤ factor * max |(b.lower.get i).value| 1 := by positivity
  have up : 0 ≤ factor * max |(b.upper.get i).value| 1 := by positivity
  have ordered := h i lower upper
  linarith

theorem Bounds.Ordered.relax {b : Bounds ℝ d} (h : b.Ordered) (factor : ℝ) :
    (b.relax factor).Ordered := by
  unfold Bounds.relax
  split
  · exact h
  · rename_i positive
    have nonneg : 0 ≤ factor := (not_le.mp positive).le
    exact ⟨h.x.widened nonneg, h.s.widened nonneg⟩

section Raw

variable {α σ : Type} [Scalar α]

/-- The bounds of the variables as a problem gives them; what it leaves unwritten is absent. -/
def Problem.rawBounds (p : Problem α σ d) (w : σ) : Vector α d.n × Vector α d.n :=
  (p.variableBounds.run w).1.onto (Vector.replicate _ (-infinity), Vector.replicate _ infinity)

/-- The bounds of the inequalities as a problem gives them once it has given those of the
variables. -/
def Problem.rawInequalityBounds (p : Problem α σ d) (w : σ) :
    Vector α d.mIneq × Vector α d.mIneq :=
  (p.inequalityBounds.run (p.variableBounds.run w).2).1.onto
    (Vector.replicate _ (-infinity), Vector.replicate _ infinity)

def Problem.GivesBounds (p : Problem α σ d) (w : σ) : Prop :=
  (p.variableBounds.run w).1.ok = true ∧
    (p.inequalityBounds.run (p.variableBounds.run w).2).1.ok = true

end Raw

namespace Bounds

/-- Validation finds no fault where no pair of bounds has one. -/
theorem firstFault_eq_none_iff {α : Type} {fault : Nat → α → α → Option (ProblemFault α)}
    {lo hi : Vector α n} :
    firstFault fault lo hi = none ↔ ∀ i : Fin n, fault i.val (lo.get i) (hi.get i) = none := by
  simp only [firstFault, List.findSome?_eq_none_iff, List.mem_finRange, forall_const]

section Validated

variable {α σ : Type} [Scalar α] {rule : FixedRule α} {b : Bounds α d}

theorem isFinite_of_isFiniteBound {v : α} (h : isFiniteBound v = true) : isFinite v = true := by
  rw [isFiniteBound, Bool.and_eq_true] at h
  exact h.1

/-- The bounds of a variable have no fault if they are defined, not crossed and, where that is an
error, do not nearly coincide. -/
theorem variableFault_eq_none_iff {i : Nat} {lo hi : α} :
    variableFault rule i lo hi = none ↔
      isUndefined lo = false ∧ isUndefined hi = false ∧ ¬hi < lo ∧
        (rule.handling = .error → rule.coincide lo hi = false) := by
  unfold variableFault
  cases isUndefined lo <;> cases isUndefined hi <;> cases rule.coincide lo hi <;>
    by_cases crossed : hi < lo <;> simp [crossed]

/-- Those of an inequality must not both be absent either. -/
theorem inequalityFault_eq_none_iff {j : Nat} {lo hi : α} :
    inequalityFault rule j lo hi = none ↔
      variableFault rule j lo hi = none ∧
        (isFiniteBound lo = true ∨ isFiniteBound hi = true) := by
  rw [variableFault_eq_none_iff]
  unfold inequalityFault
  cases isUndefined lo <;> cases isUndefined hi <;> cases rule.coincide lo hi <;>
    cases isFiniteBound lo <;> cases isFiniteBound hi <;>
    by_cases crossed : hi < lo <;> simp [crossed]

/-- Raw bounds without a fault are settled, and nothing else is accepted. -/
theorem ofRaw_ok_iff {xl xu : Vector α d.n} {dl du : Vector α d.mIneq} :
    ofRaw rule xl xu dl du = .ok b ↔
      (∀ i : Fin d.n, variableFault rule i.val (xl.get i) (xu.get i) = none) ∧
      (∀ j : Fin d.mIneq, inequalityFault rule j.val (dl.get j) (du.get j) = none) ∧
      b = ⟨settledBox rule xl xu, settledBox rule dl du,
        coinciding rule xl xu + coinciding rule dl du⟩ := by
  rw [← firstFault_eq_none_iff, ← firstFault_eq_none_iff]
  unfold ofRaw
  cases firstFault (variableFault rule) xl xu with
  | some fault => simp
  | none =>
    cases firstFault (inequalityFault rule) dl du with
    | some fault => simp
    | none => simp [eq_comm]

theorem FixedRule.coincide_of_absent {lo hi : α}
    (absent : isFiniteBound lo = false ∨ isFiniteBound hi = false) :
    rule.coincide lo hi = false := by
  obtain absent | absent := absent
  · rw [coincide, absent, Bool.false_and, Bool.false_and]
  · rw [coincide, absent, Bool.and_false, Bool.false_and]

section Apart

variable {lo hi : Vector α n} (apart : ∀ i, rule.coincide (lo.get i) (hi.get i) = false)

include apart

/-- Pairs that do not nearly coincide are flagged and stored as they are. -/
theorem settledBox_of_apart : settledBox rule lo hi = ⟨lo.map Bound.of, hi.map Bound.of⟩ := by
  have unmoved (i : Fin n) : rule.settle (lo.get i) (hi.get i) = (lo.get i, hi.get i) := by
    rw [FixedRule.settle, apart i, if_neg Bool.false_ne_true]
  apply congrArg₂ Box.mk
  · apply ext_get
    intro i
    rw [get_zipWith, unmoved, Vector.get_map]
  · apply ext_get
    intro i
    rw [get_zipWith, unmoved, Vector.get_map]

theorem coinciding_of_apart : coinciding rule lo hi = 0 := by
  rw [coinciding, List.countP_eq_zero]
  intro i _
  rw [apart i]
  exact Bool.false_ne_true

end Apart

/-- Raw bounds without a fault are stored as they are where no pair nearly coincides. -/
theorem ofRaw_of_apart {xl xu : Vector α d.n} {dl du : Vector α d.mIneq}
    (faultlessX : ∀ i : Fin d.n, variableFault rule i.val (xl.get i) (xu.get i) = none)
    (faultlessS : ∀ j : Fin d.mIneq, inequalityFault rule j.val (dl.get j) (du.get j) = none)
    (apartX : ∀ i, rule.coincide (xl.get i) (xu.get i) = false)
    (apartS : ∀ j, rule.coincide (dl.get j) (du.get j) = false) :
    ofRaw rule xl xu dl du = .ok (.literal xl xu dl du) := by
  refine ofRaw_ok_iff.mpr ⟨faultlessX, faultlessS, ?_⟩
  rw [settledBox_of_apart apartX, settledBox_of_apart apartS, coinciding_of_apart apartX,
    coinciding_of_apart apartS]
  rfl

/-- The bounds of a single variable, and no inequalities. -/
theorem ofRaw_single {m : Nat} {lo hi : α} (faultless : variableFault rule 0 lo hi = none)
    (apart : rule.coincide lo hi = false) :
    ofRaw (d := ⟨1, m, 0⟩) rule #v[lo] #v[hi] #v[] #v[] =
      .ok (.literal #v[lo] #v[hi] #v[] #v[]) := by
  refine ofRaw_of_apart (fun i => ?_) (fun j => j.elim0) (fun i => ?_) (fun j => j.elim0)
  · obtain rfl := Fin.fin_one_eq_zero i
    exact faultless
  · obtain rfl := Fin.fin_one_eq_zero i
    exact apart

/-- Bounds are accepted if both callbacks give them and validation accepts what they give. -/
theorem ofProblem_ok_iff {p : Problem α σ d} {w : σ} :
    ((ofProblem p rule).run w).1 = .ok b ↔ p.GivesBounds w ∧
      ofRaw rule (p.rawBounds w).1 (p.rawBounds w).2 (p.rawInequalityBounds w).1
        (p.rawInequalityBounds w).2 = .ok b := by
  simp only [ofProblem, Problem.GivesBounds, run_bind]
  cases given : (p.variableBounds.run w).1.ok
  · simp [StateT.run_pure]
  · simp only [Bool.not_true, Bool.false_eq_true, if_false, run_bind, true_and]
    cases (p.inequalityBounds.run (p.variableBounds.run w).2).1.ok
    · simp [StateT.run_pure]
    · simp only [Bool.not_true, Bool.false_eq_true, if_false, true_and]
      rfl

/-- Bounds that pass validation come from raw ones without a fault. -/
theorem ofProblem_ok {p : Problem α σ d} {w w' : σ}
    (h : (ofProblem p rule).run w = (.ok b, w')) :
    ofRaw rule (p.rawBounds w).1 (p.rawBounds w).2 (p.rawInequalityBounds w).1
      (p.rawInequalityBounds w).2 = .ok b :=
  (ofProblem_ok_iff.mp (congrArg Prod.fst h)).2

end Validated

variable {rule : FixedRule ℝ}

/-- Settling a pair of bounds does not bring them closer. -/
theorem FixedRule.settle_ordered (perturb : 0 ≤ rule.perturb) {lo hi : ℝ} (ordered : lo ≤ hi) :
    (rule.settle lo hi).1 ≤ (rule.settle lo hi).2 := by
  unfold FixedRule.settle
  split
  · simp only [maxNum_real, magnitude_real]
    have down : 0 ≤ rule.perturb * max |lo| 1 := by positivity
    have up : 0 ≤ rule.perturb * max |hi| 1 := by positivity
    linarith
  · exact ordered

theorem settledBox_ordered (perturb : 0 ≤ rule.perturb) {lo hi : Vector ℝ n}
    (ordered : ∀ i, lo.get i ≤ hi.get i) : (settledBox rule lo hi).Ordered := by
  intro i _ _
  simp only [settledBox, get_zipWith]
  exact rule.settle_ordered perturb (ordered i)

theorem variableFault_none {i : Nat} {lo hi : ℝ} (h : variableFault rule i lo hi = none) :
    lo ≤ hi := by
  obtain ⟨-, -, uncrossed, -⟩ := variableFault_eq_none_iff.mp h
  exact not_lt.mp uncrossed

/-- Bounds that pass validation are ordered. -/
theorem ofProblem_ordered {σ : Type} {p : Problem ℝ σ d} (perturb : 0 ≤ rule.perturb) {w w' : σ}
    {b : Bounds ℝ d} (h : (ofProblem p rule).run w = (.ok b, w')) : b.Ordered := by
  obtain ⟨faultless, inequalities, rfl⟩ := ofRaw_ok_iff.mp (ofProblem_ok h)
  constructor
  · apply settledBox_ordered perturb
    intro i
    exact variableFault_none (faultless i)
  · apply settledBox_ordered perturb
    intro j
    exact variableFault_none (inequalityFault_eq_none_iff.mp (inequalities j)).1

end Bounds

/-- What a successful creation of an engine has asked, and the engine it gives. -/
theorem Barrier.Engine.create_parts {α σ : Type} [Scalar α] {d : Dims} {p : Problem α σ d}
    {settings : InteriorSettings α} {w w' : World α σ} {e : Barrier.Engine α σ d}
    (created : (Barrier.Engine.create p settings).outcome w = (.ok e, w')) :
    (Dims.validate d : Except (ProblemFault α) Unit) = .ok () ∧ ∃ b exact inner,
      (Bounds.ofProblem p (.ofSettings settings)).run w.problem = (.ok b, inner) ∧
      Barrier.Engine.useExact p settings = .ok exact ∧
      e = ⟨⟨p, settings, b.relax settings.boundRelaxFactor⟩, .initial settings exact w'⟩ := by
  rw [Barrier.Engine.create, Step.outcome_ofOutcome] at created
  split at created
  · cases created
  · rename_i valid
    rcases queried : (Bounds.ofProblem p (.ofSettings settings)).run w.problem with
      ⟨fault | b, inner⟩
    · simp [queried] at created
    · simp only [queried] at created
      split at created
      · cases created
      · rename_i exact chosen
        cases created
        exact ⟨valid, b, exact, inner, rfl, chosen, rfl⟩

/-- A problem with valid bounds and an available Hessian has an engine. -/
theorem Barrier.Engine.create_of_bounds {α σ : Type} [Scalar α] {d : Dims} {p : Problem α σ d}
    {settings : InteriorSettings α}
    (valid : (Dims.validate d : Except (ProblemFault α) Unit) = .ok ()) {w : World α σ}
    {b : Bounds α d} {inner : σ}
    (queried : (Bounds.ofProblem p (.ofSettings settings)).run w.problem = (.ok b, inner))
    {exact : Bool} (chosen : Barrier.Engine.useExact p settings = .ok exact) :
    ∃ w', (Barrier.Engine.create p settings).outcome w =
      (.ok ⟨⟨p, settings, b.relax settings.boundRelaxFactor⟩, .initial settings exact w'⟩, w') := by
  rw [Barrier.Engine.create, Step.outcome_ofOutcome]
  simp only [valid, queried, chosen]
  exact ⟨_, rfl⟩

/-- Where no pair nearly coincides and widening changes nothing, an engine has the settled bounds
and nothing is recorded. -/
theorem Barrier.Engine.create_unmoved {α σ : Type} [Scalar α] {d : Dims} {p : Problem α σ d}
    {settings : InteriorSettings α}
    (valid : (Dims.validate d : Except (ProblemFault α) Unit) = .ok ()) {w : World α σ}
    {b : Bounds α d} {inner : σ}
    (queried : (Bounds.ofProblem p (.ofSettings settings)).run w.problem = (.ok b, inner))
    (apart : b.relaxedFixed = 0) (unmoved : b.relax settings.boundRelaxFactor = b) {exact : Bool}
    (chosen : Barrier.Engine.useExact p settings = .ok exact) :
    (Barrier.Engine.create p settings).outcome w =
      (.ok ⟨⟨p, settings, b⟩, .initial settings exact { w with problem := inner }⟩,
        { w with problem := inner }) := by
  rw [Barrier.Engine.create, Step.outcome_ofOutcome]
  simp only [valid, queried, chosen, apart, unmoved, lt_irrefl, false_and, if_false]

/-- What a successful creation of an engine fixes. -/
theorem Barrier.Engine.create_ok {σ : Type} {p : Problem ℝ σ d} {settings : InteriorSettings ℝ}
    (inRange : settings.InRange) {w w' : World ℝ σ} {e : Barrier.Engine ℝ σ d}
    (h : (Barrier.Engine.create p settings).outcome w = (.ok e, w')) :
    e.setup.problem = p ∧ e.setup.settings = settings ∧ e.setup.bounds.Ordered ∧
      ∃ exact w, e.state = .initial settings exact w := by
  have perturb : 0 ≤ (Bounds.FixedRule.ofSettings settings).perturb := inRange.fixedVarPerturb.le
  obtain ⟨-, b, exact, inner, queried, -, rfl⟩ := Barrier.Engine.create_parts h
  exact ⟨rfl, rfl, (Bounds.ofProblem_ordered perturb queried).relax _, _, _, rfl⟩

section Push

variable {kappa1 kappa2 : ℝ} {lo hi : Bound ℝ}

/-- A pushed point respects both of its bounds. -/
theorem pushInside_mem (kappa1_nonneg : 0 ≤ kappa1) (kappa2_nonneg : 0 ≤ kappa2)
    (kappa2_le : kappa2 ≤ 0.5)
    (ordered : lo.present = true → hi.present = true → lo.value ≤ hi.value) (v : ℝ) :
    (lo.present = true → lo.value ≤ pushInside kappa1 kappa2 lo hi v) ∧
      (hi.present = true → pushInside kappa1 kappa2 lo hi v ≤ hi.value) := by
  have push_nonneg : ∀ b : ℝ, 0 ≤ kappa1 * max |b| 1 := by
    intro b
    positivity
  obtain ⟨lo, has_lo⟩ := lo
  obtain ⟨hi, has_hi⟩ := hi
  cases has_lo <;> cases has_hi <;>
    simp only [pushInside, maxNum_real, minNum_real, magnitude_real, Bool.false_eq_true,
      IsEmpty.forall_iff, true_and, and_true, forall_const] at ordered ⊢
  · exact min_le_of_right_le (sub_le_self _ (push_nonneg hi))
  · have above := push_nonneg lo
    exact le_max_of_le_right (by linarith)
  · have range_nonneg : 0 ≤ hi - lo := sub_nonneg.mpr ordered
    have share_nonneg : 0 ≤ kappa2 * (hi - lo) := mul_nonneg kappa2_nonneg range_nonneg
    have share_le : kappa2 * (hi - lo) ≤ hi - lo := by
      have half : kappa2 ≤ 1 := by
        norm_num at kappa2_le
        linarith
      exact mul_le_of_le_one_left range_nonneg half
    have low_nonneg : 0 ≤ min (kappa1 * max |lo| 1) (kappa2 * (hi - lo)) :=
      le_min (push_nonneg lo) share_nonneg
    have high_nonneg : 0 ≤ min (kappa1 * max |hi| 1) (kappa2 * (hi - lo)) :=
      le_min (push_nonneg hi) share_nonneg
    have high_le := min_le_right (kappa1 * max |hi| 1) (kappa2 * (hi - lo))
    refine ⟨le_min (le_max_of_le_right ?_) ?_, min_le_of_right_le ?_⟩ <;> linarith

end Push

end SmoothOpt
