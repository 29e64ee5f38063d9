import Mathlib.Analysis.SpecialFunctions.Pow.Real
import SmoothOpt.Proofs.Scalar.Exact

/-!
The real numbers with two infinities and an undefined value as a scalar.

Arithmetic on real numbers is exact. An operation that has no value there gives an infinity or the
undefined value, as the 64-bit binary format does: `∞ - ∞`, `0 · ∞` and `∞ / ∞` are undefined, a
quotient by zero is infinite with the sign of its dividend, and every comparison with an undefined
value fails. There is one zero. What is left out of the binary format is rounding, overflow
included.
-/
namespace SmoothOpt

open Scalar

/-- A real number, an infinity or an undefined value. -/
inductive Extended where
  | finite (r : ℝ)
  | infinite (positive : Bool)
  | undefined

namespace Extended

protected def neg : Extended → Extended
  | finite r => finite (-r)
  | infinite positive => infinite !positive
  | undefined => undefined

protected noncomputable def add : Extended → Extended → Extended
  | finite a, finite b => finite (a + b)
  | finite _, infinite q => infinite q
  | infinite p, finite _ => infinite p
  | infinite p, infinite q => if p = q then infinite p else undefined
  | undefined, _ | _, undefined => undefined

noncomputable def scaleInfinite (positive : Bool) (a : ℝ) : Extended :=
  if a = 0 then undefined else infinite (if a < 0 then !positive else positive)

protected noncomputable def mul : Extended → Extended → Extended
  | finite a, finite b => finite (a * b)
  | finite a, infinite q => scaleInfinite q a
  | infinite p, finite b => scaleInfinite p b
  | infinite p, infinite q => infinite (p == q)
  | undefined, _ | _, undefined => undefined

protected noncomputable def div : Extended → Extended → Extended
  | finite a, finite b => if b = 0 then scaleInfinite true a else finite (a / b)
  | finite _, infinite _ => finite 0
  | infinite p, finite b => infinite (if b < 0 then !p else p)
  | infinite _, infinite _ => undefined
  | undefined, _ | _, undefined => undefined

protected def le : Extended → Extended → Prop
  | finite a, finite b => a ≤ b
  | finite _, infinite q => q = true
  | infinite p, finite _ => p = false
  | infinite p, infinite q => p = false ∨ q = true
  | undefined, _ | _, undefined => False

protected def lt : Extended → Extended → Prop
  | finite a, finite b => a < b
  | finite _, infinite q => q = true
  | infinite p, finite _ => p = false
  | infinite p, infinite q => p = false ∧ q = true
  | undefined, _ | _, undefined => False

protected noncomputable def sqrt : Extended → Extended
  | finite a => if a < 0 then undefined else finite (Real.sqrt a)
  | infinite true => infinite true
  | infinite false | undefined => undefined

protected noncomputable def ln : Extended → Extended
  | finite a =>
    if a < 0 then undefined else if a = 0 then infinite false else finite (Real.log a)
  | infinite true => infinite true
  | infinite false | undefined => undefined

/-- A power of a magnitude that is not one, with an infinite exponent or an infinite base; `grows`
tells whether it is infinite. -/
def limitPower (grows : Bool) : Extended := if grows then infinite true else finite 0

open Classical in
/-- A negative number has powers with integer exponents only. A zeroth power and a power of one are
one even of an undefined value. -/
protected noncomputable def pow : Extended → Extended → Extended
  | finite a, finite b =>
    if a = 0 then if b = 0 then finite 1 else limitPower (decide (b < 0))
    else if 0 < a ∨ ∃ n : ℤ, b = n then finite (a ^ b)
    else undefined
  | finite a, infinite q => if |a| = 1 then finite 1 else limitPower (q == decide (1 < |a|))
  | infinite p, finite b =>
    if b = 0 then finite 1
    else if p = false ∧ 0 < b ∧ ∃ n : ℤ, b = (2 * n + 1 : ℤ) then infinite false
    else limitPower (decide (0 < b))
  | infinite _, infinite q => limitPower q
  | undefined, finite b => if b = 0 then finite 1 else undefined
  | finite a, undefined => if a = 1 then finite 1 else undefined
  | undefined, _ | _, undefined => undefined

noncomputable instance : Scalar Extended where
  zero := finite 0
  one := finite 1
  add := Extended.add
  sub a b := Extended.add a b.neg
  mul := Extended.mul
  div := Extended.div
  neg := Extended.neg
  le := Extended.le
  lt := Extended.lt
  ofScientific mantissa negative exponent :=
    finite (OfScientific.ofScientific mantissa negative exponent)
  natCast n := finite n
  intCast n := finite n
  decLe := fun _ _ => Classical.propDecidable _
  decLt := fun _ _ => Classical.propDecidable _
  magnitude
    | finite a => finite |a|
    | infinite _ => infinite true
    | undefined => undefined
  sqrt := Extended.sqrt
  ln := Extended.ln
  pow := Extended.pow
  isFinite
    | finite _ => true
    | infinite _ | undefined => false
  infinity := infinite true
  natCeil
    | finite a => Nat.ceil a
    | infinite _ | undefined => 0

section Real

variable (a b : ℝ)

theorem zero_eq : (0 : Extended) = finite 0 := rfl

theorem one_eq : (1 : Extended) = finite 1 := rfl

theorem ofScientific_eq (mantissa : Nat) (negative : Bool) (exponent : Nat) :
    (OfScientific.ofScientific mantissa negative exponent : Extended) =
      finite (OfScientific.ofScientific mantissa negative exponent) := rfl

theorem natCast_eq (n : Nat) : (n : Extended) = finite n := rfl

@[simp] theorem finite_neg : -finite a = finite (-a) := rfl

@[simp] theorem finite_add : finite a + finite b = finite (a + b) := rfl

@[simp] theorem finite_sub : finite a - finite b = finite (a - b) :=
  congrArg finite (sub_eq_add_neg a b).symm

@[simp] theorem finite_mul : finite a * finite b = finite (a * b) := rfl

theorem finite_div {b : ℝ} (nonzero : b ≠ 0) : finite a / finite b = finite (a / b) := if_neg nonzero

@[simp] theorem finite_le : finite a ≤ finite b ↔ a ≤ b := Iff.rfl

@[simp] theorem finite_lt : finite a < finite b ↔ a < b := Iff.rfl

@[simp] theorem magnitude_finite : magnitude (finite a) = finite |a| := rfl

@[simp] theorem isFinite_finite : isFinite (finite a) = true := rfl

@[simp] theorem isUndefined_finite : isUndefined (finite a) = false := by
  simp [isUndefined]

@[simp] theorem maxNum_finite : maxNum (finite a) (finite b) = finite (max a b) := by
  rw [← maxNum_real]
  simp only [maxNum, isUndefined_finite, isUndefined_real, Bool.false_eq_true, if_false, finite_le]
  split <;> rfl

@[simp] theorem minNum_finite : minNum (finite a) (finite b) = finite (min a b) := by
  rw [← minNum_real]
  simp only [minNum, isUndefined_finite, isUndefined_real, Bool.false_eq_true, if_false, finite_le]
  split <;> rfl

@[simp] theorem equals_finite : equals (finite a) (finite b) = equals a b := rfl

end Real

theorem exists_of_isFinite {a : Extended} (h : isFinite a = true) : ∃ r, a = finite r := by
  cases a with
  | finite r => exact ⟨r, rfl⟩
  | infinite _ | undefined => cases h

@[simp] theorem isUndefined_infinite (p : Bool) : isUndefined (infinite p) = false := by
  have self : infinite p ≤ infinite p := by
    cases p
    · exact .inl rfl
    · exact .inr rfl
  simp [isUndefined, self]

theorem infinite_mul_finite (p : Bool) {a : ℝ} (positive : 0 < a) :
    infinite p * finite a = infinite p := by
  change scaleInfinite p a = _
  rw [scaleInfinite, if_neg positive.ne', if_neg positive.not_gt]

theorem infinite_div_finite (p : Bool) {a : ℝ} (positive : 0 < a) :
    infinite p / finite a = infinite p :=
  congrArg infinite (if_neg positive.not_gt)

theorem minNum_infinite (a : ℝ) : minNum (finite a) (infinite true) = finite a := by
  have above : ¬infinite true ≤ finite a := nofun
  simp [minNum, above]

theorem isFinite_of_mul {a b : Extended} (h : isFinite (a * b) = true) :
    isFinite a = true ∧ isFinite b = true := by
  have scaled : ∀ (p : Bool) (r : ℝ), isFinite (scaleInfinite p r) = false := by
    intro p r
    rw [scaleInfinite]
    split <;> rfl
  cases a with
  | undefined => cases h
  | finite r =>
    cases b with
    | finite _ => exact ⟨rfl, rfl⟩
    | infinite q => exact absurd ((scaled q r).symm.trans h) nofun
    | undefined => cases h
  | infinite p =>
    cases b with
    | finite r => exact absurd ((scaled p r).symm.trans h) nofun
    | infinite _ | undefined => cases h

theorem isFinite_of_add {a b : Extended} (h : isFinite (a + b) = true) :
    isFinite a = true ∧ isFinite b = true := by
  cases a with
  | undefined => cases h
  | finite _ =>
    cases b with
    | finite _ => exact ⟨rfl, rfl⟩
    | infinite _ | undefined => cases h
  | infinite p =>
    cases b with
    | finite _ | undefined => cases h
    | infinite q =>
      change isFinite (if p = q then infinite p else undefined) = true at h
      split at h <;> cases h

theorem isFinite_of_neg {a : Extended} (h : isFinite (-a) = true) : isFinite a = true := by
  cases a with
  | finite _ => rfl
  | infinite _ | undefined => cases h

theorem isFinite_of_sub {a b : Extended} (h : isFinite (a - b) = true) :
    isFinite a = true ∧ isFinite b = true := by
  obtain ⟨left, right⟩ := isFinite_of_add (b := -b) h
  exact ⟨left, isFinite_of_neg right⟩

/-- A quotient by an infinity is finite, but not one of an infinity. -/
theorem isFinite_of_div {a b : Extended} (h : isFinite (a / b) = true) : isFinite a = true := by
  cases a with
  | finite _ => rfl
  | infinite _ | undefined => cases b <;> cases h

/-- A finite sum has finite terms. -/
theorem isFinite_of_sum {l : List Extended} (h : isFinite (sum l) = true) :
    ∀ a ∈ l, isFinite a = true := by
  have running : ∀ (l : List Extended) (a : Extended), isFinite (l.foldl (· + ·) a) = true →
      isFinite a = true ∧ ∀ b ∈ l, isFinite b = true := by
    intro l
    induction l with
    | nil =>
      intro a h
      exact ⟨h, List.forall_mem_nil _⟩
    | cons b l ih =>
      intro a h
      obtain ⟨here, later⟩ := ih _ h
      obtain ⟨before, term⟩ := isFinite_of_add here
      exact ⟨before, List.forall_mem_cons.mpr ⟨term, later⟩⟩
  exact (running l _ h).2

theorem exists_of_le_of_le {a : Extended} {lo hi : ℝ} (above : finite lo ≤ a)
    (below : a ≤ finite hi) : ∃ r, a = finite r ∧ lo ≤ r ∧ r ≤ hi := by
  cases a with
  | finite r => exact ⟨r, rfl, above, below⟩
  | infinite p => exact absurd (above.symm.trans below) nofun
  | undefined => exact above.elim

theorem exists_of_lt_of_lt {a : Extended} {lo hi : ℝ} (above : finite lo < a)
    (below : a < finite hi) : ∃ r, a = finite r ∧ lo < r ∧ r < hi := by
  cases a with
  | finite r => exact ⟨r, rfl, above, below⟩
  | infinite p => exact absurd (above.symm.trans below) nofun
  | undefined => exact above.elim

/-- What is at least a real number is a real number or the positive infinity. -/
theorem atLeast_cases {a : Extended} {lo : ℝ} (h : finite lo ≤ a) :
    (∃ r, lo ≤ r ∧ a = finite r) ∨ a = infinite true := by
  cases a with
  | finite r => exact .inl ⟨r, h, rfl⟩
  | infinite p => exact .inr (congrArg infinite h)
  | undefined => exact h.elim

/-- What is positive is a positive real number or the positive infinity. -/
theorem positive_cases {a : Extended} (h : 0 < a) :
    (∃ r : ℝ, 0 < r ∧ a = finite r) ∨ a = infinite true := by
  cases a with
  | finite r => exact .inl ⟨r, h, rfl⟩
  | infinite p => exact .inr (congrArg infinite h)
  | undefined => exact h.elim

theorem pos_of_pos_of_le {a b : Extended} (h : 0 < a) (le : a ≤ b) : 0 < b := by
  cases b with
  | finite r =>
    obtain ⟨q, positive, rfl⟩ | rfl := positive_cases h
    · exact lt_of_lt_of_le positive le
    · cases le
  | infinite p =>
    obtain ⟨q, -, rfl⟩ | rfl := positive_cases h
    · exact le
    · exact le.resolve_left nofun
  | undefined =>
    obtain ⟨q, -, rfl⟩ | rfl := positive_cases h
    · exact le.elim
    · exact le.elim

section Order

variable {a b c : Extended} (r : ℝ) (p q : Bool)

@[simp] theorem finite_le_infinite : finite r ≤ infinite p ↔ p = true := Iff.rfl

@[simp] theorem infinite_le_finite : infinite p ≤ finite r ↔ p = false := Iff.rfl

@[simp] theorem infinite_le_infinite : infinite p ≤ infinite q ↔ p = false ∨ q = true := Iff.rfl

@[simp] theorem not_undefined_le : ¬undefined ≤ a := by
  cases a <;> exact id

@[simp] theorem not_le_undefined : ¬a ≤ undefined := by
  cases a <;> exact id

@[simp] theorem finite_lt_infinite : finite r < infinite p ↔ p = true := Iff.rfl

@[simp] theorem infinite_lt_finite : infinite p < finite r ↔ p = false := Iff.rfl

@[simp] theorem infinite_lt_infinite : infinite p < infinite q ↔ p = false ∧ q = true := Iff.rfl

@[simp] theorem not_undefined_lt : ¬undefined < a := by
  cases a <;> exact id

@[simp] theorem not_lt_undefined : ¬a < undefined := by
  cases a <;> exact id

theorem isUndefined_eq_false_iff : isUndefined a = false ↔ a ≠ undefined := by
  cases a <;> simp [isUndefined]

/-- The order is reflexive away from the undefined value. -/
theorem le_self (defined : a ≠ undefined) : a ≤ a := by
  cases a with
  | finite r => exact le_refl r
  | infinite p => cases p <;> simp
  | undefined => exact absurd rfl defined

protected theorem le_of_lt (h : a < b) : a ≤ b := by
  cases a <;> cases b <;> simp_all [le_of_lt]

protected theorem le_trans (first : a ≤ b) (second : b ≤ c) : a ≤ c := by
  cases a <;> cases b <;> cases c <;> simp_all
  · exact first.trans second
  · grind

protected theorem lt_of_le_of_lt (first : a ≤ b) (second : b < c) : a < c := by
  cases a <;> cases b <;> cases c <;> simp_all
  · exact first.trans_lt second

protected theorem lt_of_lt_of_le (first : a < b) (second : b ≤ c) : a < c := by
  cases a <;> cases b <;> cases c <;> simp_all
  · exact first.trans_le second

theorem not_lt_of_lt (h : a < b) : ¬b < a := by
  cases a <;> cases b <;> simp_all [le_of_lt]

/-- Defined values are comparable. -/
theorem not_lt_iff (left : a ≠ undefined) (right : b ≠ undefined) : ¬b < a ↔ a ≤ b := by
  cases a <;> cases b <;> simp_all [imp_iff_not_or, or_comm]

end Order

/-- A maximum with something positive is positive. -/
theorem maxNum_pos {a : Extended} (h : 0 < a) (b : Extended) : 0 < maxNum a b := by
  have defined : isUndefined a = false := by
    obtain ⟨r, -, rfl⟩ | rfl := positive_cases h
    · exact isUndefined_finite r
    · exact isUndefined_infinite true
  rw [maxNum, defined, if_neg Bool.false_ne_true]
  split
  · exact h
  · split
    · rename_i larger
      exact pos_of_pos_of_le h larger
    · exact h

section Shift

variable {a b : Extended}

@[simp] theorem undefined_add : undefined + a = undefined := by
  cases a <;> rfl

@[simp] theorem add_undefined : a + undefined = undefined := by
  cases a <;> rfl

@[simp] theorem undefined_mul : undefined * a = undefined := by
  cases a <;> rfl

@[simp] theorem mul_undefined : a * undefined = undefined := by
  cases a <;> rfl

theorem one_mul_eq (a : Extended) : 1 * a = a := by
  have unit : ¬(1 : ℝ) < 0 := by norm_num
  cases a with
  | finite r => exact congrArg finite (one_mul r)
  | infinite p => exact (if_neg (one_ne_zero' ℝ)).trans (congrArg infinite (if_neg unit))
  | undefined => rfl

theorem neg_one_mul_eq (a : Extended) : -1 * a = -a := by
  have unit : (-1 : ℝ) < 0 := by norm_num
  cases a with
  | finite r => exact congrArg finite (neg_one_mul r)
  | infinite p => exact (if_neg unit.ne).trans (congrArg infinite (if_pos unit))
  | undefined => rfl

theorem mul_pos_of_pos (left : 0 < a) (right : 0 < b) : 0 < a * b := by
  obtain ⟨r, positive, rfl⟩ | rfl := positive_cases left
  · obtain ⟨q, positive', rfl⟩ | rfl := positive_cases right
    · exact mul_pos positive positive'
    · change 0 < scaleInfinite true r
      rw [scaleInfinite, if_neg positive.ne', if_neg positive.not_gt]
      rfl
  · obtain ⟨q, positive', rfl⟩ | rfl := positive_cases right
    · rw [infinite_mul_finite true positive']
      rfl
    · rfl

theorem neg_mul_of_pos (left : 0 < a) (right : 0 < b) : -a * b = -(a * b) := by
  obtain ⟨r, positive, rfl⟩ | rfl := positive_cases left
  · obtain ⟨q, -, rfl⟩ | rfl := positive_cases right
    · exact congrArg finite (neg_mul r q)
    · change scaleInfinite true (-r) = -scaleInfinite true r
      have negative : -r < 0 := neg_neg_of_pos positive
      rw [scaleInfinite, scaleInfinite, if_neg negative.ne, if_pos negative, if_neg positive.ne',
        if_neg positive.not_gt]
      rfl
  · obtain ⟨q, positive, rfl⟩ | rfl := positive_cases right
    · rw [infinite_mul_finite true positive]
      exact infinite_mul_finite false positive
    · rfl

theorem finite_sub_lt {l : ℝ} (positive : 0 < b) : finite l - b < finite l := by
  obtain ⟨r, lowers, rfl⟩ | rfl := positive_cases positive
  · rw [finite_sub, finite_lt]
    exact sub_lt_self l lowers
  · rfl

theorem lt_finite_add {u : ℝ} (positive : 0 < b) : finite u < finite u + b := by
  obtain ⟨r, raises, rfl⟩ | rfl := positive_cases positive
  · rw [finite_add, finite_lt]
    exact lt_add_of_pos_right u raises
  · rfl

/-- What is taken from a real number, or from less, lowers it. -/
theorem sub_le_of_pos {u : ℝ} (below : a ≤ finite u) (positive : 0 < b) : a - b ≤ a := by
  cases a with
  | finite l => exact Extended.le_of_lt (finite_sub_lt positive)
  | infinite p =>
    obtain rfl : p = false := below
    obtain ⟨r, -, rfl⟩ | rfl := positive_cases positive
    · exact .inl rfl
    · exact .inl rfl
  | undefined => exact absurd below not_undefined_le

/-- What is added to a real number, or to more, raises it. -/
theorem le_add_of_pos {l : ℝ} (above : finite l ≤ a) (positive : 0 < b) : a ≤ a + b := by
  obtain ⟨u, -, rfl⟩ | rfl := atLeast_cases above
  · exact Extended.le_of_lt (lt_finite_add positive)
  · obtain ⟨r, -, rfl⟩ | rfl := positive_cases positive
    · exact .inr rfl
    · exact .inr rfl

/-- The scale of a relative shift is positive. -/
theorem maxNum_magnitude_one_pos (a : Extended) : 0 < maxNum (magnitude a) 1 := by
  cases a with
  | finite r =>
    rw [magnitude_finite, one_eq, maxNum_finite]
    exact lt_max_of_lt_right (zero_lt_one' ℝ)
  | infinite p =>
    have positive : (0 : Extended) < infinite true := rfl
    exact maxNum_pos positive 1
  | undefined =>
    have ignored : maxNum (magnitude undefined) (1 : Extended) = 1 := by
      have undefined_eq : isUndefined undefined = true := by
        simp [isUndefined]
      exact if_pos undefined_eq
    rw [ignored]
    exact zero_lt_one' ℝ

end Shift

end Extended

end SmoothOpt
