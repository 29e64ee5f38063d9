import Mathlib
import SmoothOpt.Proofs.Problem.Ordering

/-!
Which raw bounds are accepted, and what the accepted ones become.

Over numbers with infinities and an undefined value, acceptance is a condition on single pairs of
raw bounds. An accepted pair is stored as it is, or moved apart where it nearly coincides; either
way the stored range encloses the raw one and has an interior where both of its bounds are present.
Widening the bounds later never loses this: present bounds move outwards only, even after one of
them has become infinite, and absent ones stay.
-/
namespace SmoothOpt

open Scalar Linear

variable {n : Nat} {d : Dims}

section Pair

variable {rule : Bounds.FixedRule Extended} {lo hi : Extended}

/-- Two real bounds in earnest, no further apart than the tolerance relative to the upper one. -/
def Bounds.FixedRule.NearEqual (rule : Bounds.FixedRule Extended) (lo hi : Extended) : Prop :=
  ∃ l u : ℝ, lo = .finite l ∧ hi = .finite u ∧ isFiniteBound lo = true ∧ isFiniteBound hi = true ∧
    .finite (u - l) ≤ rule.tolerance * .finite (max 1 |u|)

/-- A pair of raw bounds that passes: defined, not crossed and, where that is an error, not nearly
equal. -/
structure Bounds.FixedRule.Accepts (rule : Bounds.FixedRule Extended) (lo hi : Extended) :
    Prop where
  lower : lo ≠ .undefined
  upper : hi ≠ .undefined
  ordered : lo ≤ hi
  apart : rule.handling = .error → ¬rule.NearEqual lo hi

namespace Bounds.FixedRule

theorem coincide_iff : rule.coincide lo hi = true ↔ rule.NearEqual lo hi := by
  simp only [coincide, Bool.and_eq_true, decide_eq_true_eq]
  constructor
  · rintro ⟨⟨lower, upper⟩, near⟩
    obtain ⟨l, rfl⟩ := Extended.exists_of_isFinite (isFinite_of_isFiniteBound lower)
    obtain ⟨u, rfl⟩ := Extended.exists_of_isFinite (isFinite_of_isFiniteBound upper)
    rw [Extended.finite_sub, Extended.magnitude_finite, Extended.one_eq, Extended.maxNum_finite,
      max_comm] at near
    exact ⟨l, u, rfl, rfl, lower, upper, near⟩
  · rintro ⟨l, u, rfl, rfl, lower, upper, near⟩
    rw [Extended.finite_sub, Extended.magnitude_finite, Extended.one_eq, Extended.maxNum_finite,
      max_comm]
    exact ⟨⟨lower, upper⟩, near⟩

/-- A pair passes exactly where validation finds no fault in it. -/
theorem variableFault_eq_none_iff_accepts {i : Nat} :
    variableFault rule i lo hi = none ↔ rule.Accepts lo hi := by
  rw [variableFault_eq_none_iff, Extended.isUndefined_eq_false_iff,
    Extended.isUndefined_eq_false_iff]
  simp only [← Bool.not_eq_true, coincide_iff]
  constructor
  · rintro ⟨lower, upper, uncrossed, apart⟩
    exact ⟨lower, upper, (Extended.not_lt_iff lower upper).mp uncrossed, apart⟩
  · rintro ⟨lower, upper, ordered, apart⟩
    exact ⟨lower, upper, (Extended.not_lt_iff lower upper).mpr ordered, apart⟩

/-- Only a pair that nearly coincides is moved. -/
theorem settle_of_not_nearEqual (apart : ¬rule.NearEqual lo hi) :
    rule.settle lo hi = (lo, hi) := by
  rw [settle, if_neg (mt coincide_iff.mp apart)]

/-- A distance above a tolerance that is not negative is positive. -/
theorem lt_of_not_nearEqual (tolerance : 0 ≤ rule.tolerance) (apart : ¬rule.NearEqual lo hi)
    (ordered : lo ≤ hi) (lower : isFiniteBound lo = true) (upper : isFiniteBound hi = true) :
    lo < hi := by
  obtain ⟨l, rfl⟩ := Extended.exists_of_isFinite (isFinite_of_isFiniteBound lower)
  obtain ⟨u, rfl⟩ := Extended.exists_of_isFinite (isFinite_of_isFiniteBound upper)
  rw [Extended.finite_le] at ordered
  rw [Extended.finite_lt]
  refine lt_of_le_of_ne ordered ?_
  rintro rfl
  refine apart ⟨l, l, rfl, rfl, lower, upper, ?_⟩
  have scale : (0 : ℝ) < max 1 |l| := lt_max_of_lt_left one_pos
  rw [sub_self]
  obtain ⟨t, nonneg, tol⟩ | tol := Extended.atLeast_cases tolerance
  · rw [tol, Extended.finite_mul, Extended.finite_le]
    positivity
  · rw [tol, Extended.infinite_mul_finite true scale]
    rfl

/-- A settled pair encloses the raw one. -/
theorem settle_encloses (perturb : 0 < rule.perturb) (accepted : rule.Accepts lo hi) :
    (rule.settle lo hi).1 ≤ lo ∧ hi ≤ (rule.settle lo hi).2 := by
  by_cases near : rule.NearEqual lo hi
  · obtain ⟨l, u, rfl, rfl, -⟩ := near
    unfold settle
    split
    · have down := Extended.mul_pos_of_pos perturb (Extended.maxNum_magnitude_one_pos (.finite l))
      have up := Extended.mul_pos_of_pos perturb (Extended.maxNum_magnitude_one_pos (.finite u))
      exact ⟨Extended.le_of_lt (Extended.finite_sub_lt down),
        Extended.le_of_lt (Extended.lt_finite_add up)⟩
    · exact ⟨le_refl l, le_refl u⟩
  · rw [settle_of_not_nearEqual near]
    exact ⟨Extended.le_self accepted.lower, Extended.le_self accepted.upper⟩

/-- A pair that is moved apart gets an interior. -/
theorem settle_strict_of_nearEqual (perturb : 0 < rule.perturb) (near : rule.NearEqual lo hi)
    (ordered : lo ≤ hi) : (rule.settle lo hi).1 < (rule.settle lo hi).2 := by
  have coinciding := coincide_iff.mpr near
  obtain ⟨l, u, rfl, rfl, -⟩ := near
  have down := Extended.mul_pos_of_pos perturb (Extended.maxNum_magnitude_one_pos (.finite l))
  have up := Extended.mul_pos_of_pos perturb (Extended.maxNum_magnitude_one_pos (.finite u))
  rw [settle, if_pos coinciding]
  have left := Extended.lt_of_lt_of_le (Extended.finite_sub_lt down) ordered
  exact Extended.lt_of_lt_of_le left (Extended.le_of_lt (Extended.lt_finite_add up))

/-- A settled pair with two bounds in earnest has an interior. -/
theorem settle_strict (tolerance : 0 ≤ rule.tolerance) (perturb : 0 < rule.perturb)
    (accepted : rule.Accepts lo hi) (lower : isFiniteBound (rule.settle lo hi).1 = true)
    (upper : isFiniteBound (rule.settle lo hi).2 = true) :
    (rule.settle lo hi).1 < (rule.settle lo hi).2 := by
  by_cases near : rule.NearEqual lo hi
  · exact settle_strict_of_nearEqual perturb near accepted.ordered
  · rw [settle_of_not_nearEqual near] at lower upper ⊢
    exact lt_of_not_nearEqual tolerance near accepted.ordered lower upper

end Bounds.FixedRule

end Pair

section Stored

/-- Each bound is flagged by its value. -/
def Box.Flagged (b : Box Extended n) : Prop :=
  ∀ i, (b.lower.get i).present = isFiniteBound (b.lower.get i).value ∧
    (b.upper.get i).present = isFiniteBound (b.upper.get i).value

/-- Each range contains the raw one. -/
def Box.Encloses (b : Box Extended n) (raw : Vector Extended n × Vector Extended n) : Prop :=
  ∀ i, (b.lower.get i).value ≤ raw.1.get i ∧ raw.2.get i ≤ (b.upper.get i).value

/-- Where both bounds are present, the lower one is strictly below the upper one. -/
def Box.Strict (b : Box Extended n) : Prop :=
  ∀ i, (b.lower.get i).present = true → (b.upper.get i).present = true →
    (b.lower.get i).value < (b.upper.get i).value

structure Box.PreparedFrom (b : Box Extended n) (rule : Bounds.FixedRule Extended)
    (raw : Vector Extended n × Vector Extended n) : Prop where
  flagged : b.Flagged
  unchanged : ∀ i, ¬rule.NearEqual (raw.1.get i) (raw.2.get i) →
    (b.lower.get i).value = raw.1.get i ∧ (b.upper.get i).value = raw.2.get i
  encloses : b.Encloses raw
  strict : b.Strict

noncomputable def Bounds.FixedRule.nearEqualPairs (rule : Bounds.FixedRule Extended)
    (raw : Vector Extended n × Vector Extended n) : Nat :=
  Nat.card { i // rule.NearEqual (raw.1.get i) (raw.2.get i) }

namespace Bounds

variable {rule : FixedRule Extended} {lo hi : Vector Extended n}

theorem settledBox_flagged : (settledBox rule lo hi).Flagged := by
  intro i
  simp only [settledBox, get_zipWith]
  exact ⟨rfl, rfl⟩

theorem settledBox_prepared (tolerance : 0 ≤ rule.tolerance) (perturb : 0 < rule.perturb)
    (accepted : ∀ i, rule.Accepts (lo.get i) (hi.get i)) :
    (settledBox rule lo hi).PreparedFrom rule (lo, hi) where
  flagged := settledBox_flagged
  unchanged i apart := by
    simp only [settledBox, get_zipWith, FixedRule.settle_of_not_nearEqual apart]
    exact ⟨rfl, rfl⟩
  encloses i := by
    simp only [settledBox, get_zipWith]
    exact FixedRule.settle_encloses perturb (accepted i)
  strict i lower upper := by
    simp only [settledBox, get_zipWith] at lower upper ⊢
    exact FixedRule.settle_strict tolerance perturb (accepted i) lower upper

theorem coinciding_eq_nearEqualPairs :
    coinciding rule lo hi = rule.nearEqualPairs (lo, hi) := by
  let counted := (List.finRange n).filter fun i => rule.coincide (lo.get i) (hi.get i)
  have member (i : Fin n) : i ∈ counted.toFinset ↔ rule.NearEqual (lo.get i) (hi.get i) := by
    simp only [counted, List.mem_toFinset, List.mem_filter, List.mem_finRange, true_and,
      FixedRule.coincide_iff]
  have distinct : counted.Nodup := (List.nodup_finRange n).filter _
  rw [coinciding, List.countP_eq_length_filter, FixedRule.nearEqualPairs,
    Nat.subtype_card counted.toFinset member, List.toFinset_card_of_nodup distinct]

theorem nearEqualPairs_eq_zero (apart : ∀ i, ¬rule.NearEqual (lo.get i) (hi.get i)) :
    rule.nearEqualPairs (lo, hi) = 0 := by
  have none_near := Subtype.isEmpty_of_false apart
  exact Nat.card_of_isEmpty

end Bounds

end Stored

section Widening

/-- A present bound stays present, and an absent one stays as it is. -/
structure Bound.Keeps {α : Type} (before after : Bound α) : Prop where
  present : after.present = before.present
  absent : before.present = false → after = before

def Box.Keeps {α : Type} (before after : Box α n) : Prop :=
  ∀ i, (before.lower.get i).Keeps (after.lower.get i) ∧
    (before.upper.get i).Keeps (after.upper.get i)

/-- The same bounds are present, and the others are as they were. -/
structure Bounds.Keeps {α : Type} (before after : Bounds α d) : Prop where
  x : before.x.Keeps after.x
  s : before.s.Keeps after.s

theorem Box.Keeps.refl {α : Type} (b : Box α n) : b.Keeps b :=
  fun _ => ⟨⟨rfl, fun _ => rfl⟩, ⟨rfl, fun _ => rfl⟩⟩

section Any

variable {α : Type} [Scalar α]

theorem Bound.Keeps.moved {b c : Bound α} (h : b.Keeps c) (shift : α) :
    b.Keeps (c.moved shift) where
  present := (c.moved_present shift).trans h.present
  absent missing := by
    rw [Bound.moved, h.present, missing, if_neg Bool.false_ne_true]
    exact h.absent missing

theorem Box.Keeps.widened {b c : Box α n} (h : b.Keeps c) (factor : α) :
    b.Keeps (c.widened factor) := by
  intro i
  simp only [Box.widened, Vector.get_map]
  exact ⟨(h i).1.moved _, (h i).2.moved _⟩

theorem Bounds.Keeps.relax {b c : Bounds α d} (h : b.Keeps c) (factor : α) :
    b.Keeps (c.relax factor) := by
  unfold Bounds.relax
  split
  · exact h
  · exact ⟨h.x.widened factor, h.s.widened factor⟩

/-- However often bounds are widened, and by whatever factors, the same ones are present. -/
theorem Bounds.Keeps.relaxed {b c : Bounds α d} (h : b.Keeps c) (factors : List α) :
    b.Keeps (factors.foldl Bounds.relax c) := by
  induction factors generalizing c with
  | nil => exact h
  | cons factor factors ih => exact ih (h.relax factor)

end Any

/-- No present bound has moved inwards. -/
def Box.WidensTo (before after : Box Extended n) : Prop :=
  ∀ i, ((before.lower.get i).present = true →
      (after.lower.get i).value ≤ (before.lower.get i).value) ∧
    ((before.upper.get i).present = true →
      (before.upper.get i).value ≤ (after.upper.get i).value)

structure Bounds.WidensTo (before after : Bounds Extended d) : Prop where
  x : before.x.WidensTo after.x
  s : before.s.WidensTo after.s

/-- A lower bound that has come down from a real one goes on coming down. -/
theorem Bound.moved_down {b : Bound Extended} {l : ℝ} (below : b.value ≤ .finite l)
    {factor : Extended} (positive : 0 < factor) : (b.moved (-1 * factor)).value ≤ b.value := by
  have scale := Extended.maxNum_magnitude_one_pos b.value
  unfold Bound.moved
  split
  · rw [Extended.neg_one_mul_eq, Extended.neg_mul_of_pos positive scale]
    exact Extended.sub_le_of_pos below (Extended.mul_pos_of_pos positive scale)
  · refine Extended.le_self fun missing => ?_
    rw [missing] at below
    exact Extended.not_undefined_le below

theorem Bound.moved_up {b : Bound Extended} {u : ℝ} (above : .finite u ≤ b.value)
    {factor : Extended} (positive : 0 < factor) : b.value ≤ (b.moved (1 * factor)).value := by
  have scale := Extended.maxNum_magnitude_one_pos b.value
  unfold Bound.moved
  split
  · rw [Extended.one_mul_eq]
    exact Extended.le_add_of_pos above (Extended.mul_pos_of_pos positive scale)
  · refine Extended.le_self fun missing => ?_
    rw [missing] at above
    exact Extended.not_le_undefined above

/-- A step outwards from a widened box widens it further. -/
theorem Box.WidensTo.widened {b c : Box Extended n} (h : b.WidensTo c) (flagged : b.Flagged)
    {factor : Extended} (positive : 0 < factor) : b.WidensTo (c.widened factor) := by
  intro i
  simp only [Box.widened, Vector.get_map]
  constructor
  · intro present
    have earnest := (flagged i).1.symm.trans present
    obtain ⟨l, real⟩ := Extended.exists_of_isFinite (Bounds.isFinite_of_isFiniteBound earnest)
    have below := (h i).1 present
    exact Extended.le_trans (Bound.moved_down (real ▸ below) positive) below
  · intro present
    have earnest := (flagged i).2.symm.trans present
    obtain ⟨u, real⟩ := Extended.exists_of_isFinite (Bounds.isFinite_of_isFiniteBound earnest)
    have above := (h i).2 present
    exact Extended.le_trans above (Bound.moved_up (real ▸ above) positive)

theorem Box.WidensTo.refl {b : Box Extended n} (flagged : b.Flagged) : b.WidensTo b := by
  have earnest {v : Extended} (h : isFiniteBound v = true) : v ≤ v := by
    obtain ⟨r, rfl⟩ := Extended.exists_of_isFinite (Bounds.isFinite_of_isFiniteBound h)
    exact le_refl r
  exact fun i => ⟨fun present => earnest ((flagged i).1.symm.trans present),
    fun present => earnest ((flagged i).2.symm.trans present)⟩

theorem Bounds.WidensTo.relax {b c : Bounds Extended d} (h : b.WidensTo c) (x : b.x.Flagged)
    (s : b.s.Flagged) {factor : Extended} (defined : factor ≠ .undefined) :
    b.WidensTo (c.relax factor) := by
  unfold Bounds.relax
  split
  · exact h
  · rename_i above
    have positive : 0 < factor :=
      not_not.mp (mt (Extended.not_lt_iff defined Extended.noConfusion).mp above)
    exact ⟨h.x.widened x positive, h.s.widened s positive⟩

/-- However often bounds are widened, no present one moves inwards. -/
theorem Bounds.WidensTo.relaxed {b c : Bounds Extended d} (h : b.WidensTo c) (x : b.x.Flagged)
    (s : b.s.Flagged) {factors : List Extended} (defined : ∀ f ∈ factors, f ≠ .undefined) :
    b.WidensTo (factors.foldl Bounds.relax c) := by
  induction factors generalizing c with
  | nil => exact h
  | cons factor factors ih =>
    obtain ⟨first, later⟩ := List.forall_mem_cons.mp defined
    exact ih (h.relax x s first) later

theorem Box.Strict.of_widensTo {b c : Box Extended n} (strict : b.Strict) (keeps : b.Keeps c)
    (widens : b.WidensTo c) : c.Strict := by
  intro i lower upper
  have low := (keeps i).1.present.symm.trans lower
  have high := (keeps i).2.present.symm.trans upper
  have left := Extended.lt_of_le_of_lt ((widens i).1 low) (strict i low high)
  exact Extended.lt_of_lt_of_le left ((widens i).2 high)

theorem Box.Encloses.of_widensTo {b c : Box Extended n}
    {raw : Vector Extended n × Vector Extended n} (encloses : b.Encloses raw) (keeps : b.Keeps c)
    (widens : b.WidensTo c) : c.Encloses raw := by
  intro i
  obtain ⟨below, above⟩ := encloses i
  constructor
  · cases present : (b.lower.get i).present
    · rw [(keeps i).1.absent present]
      exact below
    · exact Extended.le_trans ((widens i).1 present) below
  · cases present : (b.upper.get i).present
    · rw [(keeps i).2.absent present]
      exact above
    · exact Extended.le_trans above ((widens i).2 present)

/-- No present bound has a value that is defined. -/
def Box.Lost (b : Box Extended n) : Prop :=
  ∀ i, ((b.lower.get i).present = true → (b.lower.get i).value = .undefined) ∧
    ((b.upper.get i).present = true → (b.upper.get i).value = .undefined)

/-- A value once undefined, or moved by an undefined shift, is undefined. -/
theorem Bound.moved_undefined {b : Bound Extended} {shift : Extended}
    (lost : shift = .undefined ∨ (b.present = true → b.value = .undefined))
    (present : (b.moved shift).present = true) : (b.moved shift).value = .undefined := by
  rw [b.moved_present] at present
  rw [Bound.moved, if_pos present]
  obtain rfl | lost := lost
  · rw [Extended.undefined_mul, Extended.add_undefined]
  · rw [lost present, Extended.undefined_add]

theorem Box.lost_widened {b : Box Extended n} {factor : Extended}
    (lost : factor = .undefined ∨ b.Lost) : (b.widened factor).Lost := by
  have shift (a : Extended) (undefined : factor = .undefined) : a * factor = .undefined := by
    rw [undefined, Extended.mul_undefined]
  intro i
  simp only [Box.widened, Vector.get_map]
  exact ⟨Bound.moved_undefined (lost.imp (shift _) fun lost => (lost i).1),
    Bound.moved_undefined (lost.imp (shift _) fun lost => (lost i).2)⟩

theorem Bounds.lost_relax {b : Bounds Extended d} {factor : Extended}
    (lost : factor = .undefined ∨ b.x.Lost ∧ b.s.Lost) :
    (b.relax factor).x.Lost ∧ (b.relax factor).s.Lost := by
  unfold Bounds.relax
  split
  · rename_i low
    refine lost.resolve_left fun undefined => ?_
    rw [undefined] at low
    exact Extended.not_undefined_le low
  · exact ⟨Box.lost_widened (lost.imp_right And.left), Box.lost_widened (lost.imp_right And.right)⟩

theorem Bounds.lost_relaxed {b : Bounds Extended d} (lost : b.x.Lost ∧ b.s.Lost)
    (factors : List Extended) :
    (factors.foldl Bounds.relax b).x.Lost ∧ (factors.foldl Bounds.relax b).s.Lost := by
  induction factors generalizing b with
  | nil => exact lost
  | cons factor factors ih => exact ih (Bounds.lost_relax (.inr lost))

/-- An undefined factor leaves no present bound a value, for good. The same bounds are present, and
the others are as they were. -/
theorem Bounds.relaxed_undefined (b : Bounds Extended d) {factors : List Extended}
    (undefined : .undefined ∈ factors) : b.Keeps (factors.foldl Bounds.relax b) ∧
      (factors.foldl Bounds.relax b).x.Lost ∧ (factors.foldl Bounds.relax b).s.Lost := by
  refine ⟨.relaxed ⟨.refl b.x, .refl b.s⟩ factors, ?_⟩
  obtain ⟨earlier, later, rfl⟩ := List.mem_iff_append.mp undefined
  rw [List.foldl_append, List.foldl_cons]
  exact Bounds.lost_relaxed (Bounds.lost_relax (.inl rfl)) later

end Widening

namespace Bounds

variable {σ : Type} {rule : FixedRule Extended} {p : Problem Extended σ d} {w : σ}
  {b : Bounds Extended d}

/-- Every pair of raw bounds passes, and each inequality has a bound in earnest. -/
structure FixedRule.AcceptsAll (rule : FixedRule Extended) (p : Problem Extended σ d) (w : σ) :
    Prop where
  x : ∀ i, rule.Accepts ((p.rawBounds w).1.get i) ((p.rawBounds w).2.get i)
  s : ∀ j,
    rule.Accepts ((p.rawInequalityBounds w).1.get j) ((p.rawInequalityBounds w).2.get j)
  bounded : ∀ j, isFiniteBound ((p.rawInequalityBounds w).1.get j) = true ∨
    isFiniteBound ((p.rawInequalityBounds w).2.get j) = true

/-- Bounds as they are prepared from those a problem gives. -/
structure PreparedFrom (b : Bounds Extended d) (rule : FixedRule Extended)
    (p : Problem Extended σ d) (w : σ) : Prop where
  x : b.x.PreparedFrom rule (p.rawBounds w)
  s : b.s.PreparedFrom rule (p.rawInequalityBounds w)
  relaxedFixed : b.relaxedFixed =
    rule.nearEqualPairs (p.rawBounds w) + rule.nearEqualPairs (p.rawInequalityBounds w)
  unmoved : rule.handling = .error → b.relaxedFixed = 0

theorem ofProblem_ok_iff_accepts :
    (∃ b, ((ofProblem p rule).run w).1 = .ok b) ↔ p.GivesBounds w ∧ rule.AcceptsAll p w := by
  simp only [ofProblem_ok_iff, ofRaw_ok_iff, inequalityFault_eq_none_iff,
    FixedRule.variableFault_eq_none_iff_accepts]
  constructor
  · rintro ⟨b, given, x, s, -⟩
    exact ⟨given, x, fun j => (s j).1, fun j => (s j).2⟩
  · rintro ⟨given, accepted⟩
    exact ⟨_, given, accepted.x, fun j => ⟨accepted.s j, accepted.bounded j⟩, rfl⟩

theorem PreparedFrom.of_ok (tolerance : 0 ≤ rule.tolerance) (perturb : 0 < rule.perturb)
    (queried : ((ofProblem p rule).run w).1 = .ok b) : b.PreparedFrom rule p w := by
  obtain ⟨-, accepted⟩ := ofProblem_ok_iff_accepts.mp ⟨b, queried⟩
  obtain ⟨-, raw⟩ := ofProblem_ok_iff.mp queried
  obtain ⟨-, -, rfl⟩ := ofRaw_ok_iff.mp raw
  refine ⟨settledBox_prepared tolerance perturb accepted.x,
    settledBox_prepared tolerance perturb accepted.s, ?_, fun error => ?_⟩
  · exact congrArg₂ (· + ·) coinciding_eq_nearEqualPairs coinciding_eq_nearEqualPairs
  · rw [coinciding_eq_nearEqualPairs, coinciding_eq_nearEqualPairs,
      nearEqualPairs_eq_zero fun i => (accepted.x i).apart error,
      nearEqualPairs_eq_zero fun j => (accepted.s j).apart error]

/-- Bounds are accepted if and only if both callbacks give them, every pair is defined, ordered and,
where that is an error, not nearly equal, and every inequality has a bound in earnest.

Accepted bounds are flagged by their stored values. Nearly equal pairs are counted and moved apart,
and all others stored as they are, so that every stored range contains the raw one and has an
interior where both of its bounds are present. Widening them any number of times never changes which
are present, and never touches an absent one. As long as the factors are defined, whatever their
signs and however large, it moves present ones outwards only, so that every range keeps the raw one
and its interior; an undefined factor takes every present bound its value
(`Bounds.relaxed_undefined`). -/
theorem ofProblem_prepares {σ : Type} (p : Problem Extended σ d) {rule : FixedRule Extended}
    (tolerance : 0 ≤ rule.tolerance) (perturb : 0 < rule.perturb) (w : σ) :
    ((∃ b, ((ofProblem p rule).run w).1 = .ok b) ↔ p.GivesBounds w ∧ rule.AcceptsAll p w) ∧
    ∀ b, ((ofProblem p rule).run w).1 = .ok b → b.PreparedFrom rule p w ∧
      ∀ factors : List Extended, b.Keeps (factors.foldl relax b) ∧
        ((∀ f ∈ factors, f ≠ .undefined) → b.WidensTo (factors.foldl relax b) ∧
          (factors.foldl relax b).x.Strict ∧ (factors.foldl relax b).s.Strict ∧
          (factors.foldl relax b).x.Encloses (p.rawBounds w) ∧
          (factors.foldl relax b).s.Encloses (p.rawInequalityBounds w)) := by
  refine ⟨ofProblem_ok_iff_accepts, fun b queried => ?_⟩
  have prepared := PreparedFrom.of_ok tolerance perturb queried
  have x := prepared.x
  have s := prepared.s
  refine ⟨prepared, fun factors => ?_⟩
  have keeps : b.Keeps (factors.foldl relax b) :=
    Keeps.relaxed ⟨Box.Keeps.refl b.x, Box.Keeps.refl b.s⟩ factors
  refine ⟨keeps, fun defined => ?_⟩
  have widens : b.WidensTo (factors.foldl relax b) :=
    WidensTo.relaxed ⟨.refl x.flagged, .refl s.flagged⟩ x.flagged s.flagged defined
  exact ⟨widens, x.strict.of_widensTo keeps.x widens.x, s.strict.of_widensTo keeps.s widens.s,
    x.encloses.of_widensTo keeps.x widens.x, s.encloses.of_widensTo keeps.s widens.s⟩

end Bounds

namespace Coinciding

/-- Minimize the first variable, which is free, where the second is held at one and an inequality is
not negative. -/
def problem : Problem Extended Unit ⟨2, 0, 1⟩ where
  variableBounds := pure (.good
    (#v[.infinite false, .finite 1], #v[.infinite true, .finite 1]))
  inequalityBounds := pure (.good (single (.finite 0), single (.infinite true)))
  start := pure (.good #v[.finite 0, .finite 1])
  objective x _ := pure (.good (x.get ⟨0, Nat.zero_lt_two⟩))
  gradient _ _ := pure (.good #v[.finite 1, .finite 0])
  equalities _ _ := pure (.silent true)
  inequalities x _ := pure (.good (single (x.get ⟨0, Nat.zero_lt_two⟩)))
  equalityJacobian _ _ := pure (.silent true)
  inequalityJacobian _ _ := pure (.good (single #v[.finite 1, .finite 0]))
  providesHessian := false
  hessian _ _ _ _ _ := pure (.silent false)

/-- Only equal bounds coincide, and they are moved by their scale. -/
def rule : Bounds.FixedRule Extended := ⟨.relax, .finite 0, .finite 1⟩

theorem isFiniteBound_finite {r : ℝ} (small : |r| < 1e20) :
    isFiniteBound (Extended.finite r) = true := by
  rw [isFiniteBound, Extended.isFinite_finite, Bool.true_and, decide_eq_true_eq]
  exact small

theorem nearEqual_iff (i : Fin 2) :
    i ∈ ({1} : Finset (Fin 2)) ↔
      rule.NearEqual ((problem.rawBounds ()).1.get i) ((problem.rawBounds ()).2.get i) := by
  rw [Finset.mem_singleton]
  fin_cases i
  · refine iff_of_false nofun ?_
    rintro ⟨l, u, lower, -⟩
    cases lower
  · have earnest : isFiniteBound (Extended.finite 1) = true :=
      isFiniteBound_finite (by norm_num)
    have near : Extended.finite (1 - 1) ≤ .finite 0 * .finite (max 1 |1|) := by
      rw [Extended.finite_mul, Extended.finite_le]
      norm_num
    exact iff_of_true rfl ⟨1, 1, rfl, rfl, earnest, earnest, near⟩

theorem not_nearEqual (j : Fin 1) : ¬rule.NearEqual ((problem.rawInequalityBounds ()).1.get j)
    ((problem.rawInequalityBounds ()).2.get j) := by
  obtain rfl := Fin.fin_one_eq_zero j
  rintro ⟨l, u, -, upper, -⟩
  cases upper

theorem accepted : rule.AcceptsAll problem () where
  x i := by
    fin_cases i
    · exact ⟨nofun, nofun, .inl rfl, nofun⟩
    · exact ⟨nofun, nofun, le_refl (1 : ℝ), nofun⟩
  s j := by
    obtain rfl := Fin.fin_one_eq_zero j
    exact ⟨nofun, nofun, rfl, nofun⟩
  bounded j := by
    obtain rfl := Fin.fin_one_eq_zero j
    exact .inl (isFiniteBound_finite (by norm_num))

end Coinciding

/-- A variable with equal bounds gets room, and keeps it when it is widened without limit. -/
theorem Coinciding.widened_without_limit : ∃ b,
    ((Bounds.ofProblem problem rule).run ()).1 = .ok b ∧ b.relaxedFixed = 1 ∧
      (([.finite (-1), .finite 3, .infinite true, .infinite true] :
        List Extended).foldl Bounds.relax b).x.Strict := by
  have tolerance : 0 ≤ rule.tolerance := le_refl (0 : ℝ)
  have perturb : 0 < rule.perturb := zero_lt_one' ℝ
  obtain ⟨passes, ready⟩ := Bounds.ofProblem_prepares problem tolerance perturb ()
  obtain ⟨b, queried⟩ := passes.mpr ⟨⟨rfl, rfl⟩, accepted⟩
  obtain ⟨prepared, widened⟩ := ready b queried
  have pinned : rule.nearEqualPairs (problem.rawBounds ()) = 1 := by
    rw [Bounds.FixedRule.nearEqualPairs, Nat.subtype_card {1} nearEqual_iff, Finset.card_singleton]
  have apart : rule.nearEqualPairs (problem.rawInequalityBounds ()) = 0 :=
    Bounds.nearEqualPairs_eq_zero not_nearEqual
  have defined : ∀ f ∈ ([.finite (-1), .finite 3, .infinite true, .infinite true] : List Extended),
      f ≠ .undefined := by
    simp
  obtain ⟨-, strict, -⟩ := (widened _).2 defined
  refine ⟨b, queried, ?_, strict⟩
  rw [prepared.relaxedFixed, pinned, apart]

end SmoothOpt
