import Mathlib
import SmoothOpt.Proofs.Settings.Range

/-!
What an option looks at in the value it is offered.

Every option reads its value in one of three ways, as a number, as a count or as one of its
keywords, and all else it does follows from that reading. So two values that are the same number
are the same to a numeric option, and a text is accepted only if it is a keyword.
-/
namespace SmoothOpt

namespace OptionValue

variable {α β γ δ : Type}

theorem map_ok {ε : Type} {x : Except ε β} {f : β → γ} {r : γ} (h : x.map f = .ok r) :
    ∃ b, x = .ok b ∧ f b = r := by
  cases x with
  | error _ => cases h
  | ok b =>
    cases h
    exact ⟨b, rfl, rfl⟩

/-- All that `set` uses of a value is what `read` makes of it. -/
def Through (read : OptionValue α → Except (OptionFault α) γ)
    (set : OptionValue α → Except (OptionFault α) β) : Prop :=
  ∃ next, ∀ value, set value = read value >>= next

namespace Through

variable {read : OptionValue α → Except (OptionFault α) γ}
  {set : OptionValue α → Except (OptionFault α) β}

theorem refl (read : OptionValue α → Except (OptionFault α) γ) : Through read read :=
  ⟨pure, fun _ => (bind_pure _).symm⟩

theorem bind (h : Through read set) (next : β → Except (OptionFault α) δ) :
    Through read fun value => set value >>= next := by
  obtain ⟨first, factors⟩ := h
  refine ⟨fun v => first v >>= next, fun value => ?_⟩
  dsimp only
  rw [factors, bind_assoc]

theorem map (h : Through read set) (f : β → δ) : Through read fun value => (set value).map f := by
  obtain ⟨first, factors⟩ := h
  refine ⟨fun v => (first v).map f, fun value => ?_⟩
  dsimp only
  rw [factors]
  cases read value <;> rfl

end Through

variable [Scalar α]

def keywords : List String :=
  ["lsq", "0", "newton", "1", "constant", "auto", "exact", "analytical_exact", "quasinewton",
   "quasi_newton", "quasinewton_approx", "none", "error", "relax", "bounded_geometric", "min",
   "saturating", "max", "yes", "true", "no", "false"]

inductive Takes (set : OptionValue α → Except (OptionFault α) β) : Prop
  | number (name : String) (through : Through (·.number name) set)
  | count (name : String) (through : Through (·.count name) set)
  | keyword {γ : Type} (name : String) (words : List (String × γ))
      (through : Through (·.keyword name words) set) (listed : ∀ w ∈ words, w.1 ∈ keywords)
  | nothing (fault : OptionFault α) (refuses : ∀ value, set value = .error fault)

theorem Takes.map {set : OptionValue α → Except (OptionFault α) β} (h : Takes set) (f : β → δ) :
    Takes fun value => (set value).map f := by
  cases h with
  | number name through => exact .number name (through.map f)
  | count name through => exact .count name (through.map f)
  | keyword name words through listed => exact .keyword name words (through.map f) listed
  | nothing fault refuses =>
    refine .nothing fault fun value => ?_
    rw [refuses]
    rfl

section Checks

variable (name : String)

theorem inRange_through (lo : α) (hi : Option α) :
    Through (·.number name) (inRange (α := α) name lo hi) := (Through.refl _).bind _

theorem positive_through : Through (·.number name) (positive (α := α) name) :=
  (inRange_through name 0 none).bind _

theorem openUnit_through : Through (·.number name) (openUnit (α := α) name) :=
  (Through.refl _).bind _

omit [Scalar α] in
theorem level_through : Through (·.count name) (level (α := α) name) := (Through.refl _).bind _

end Checks

section Accepted

variable {set : OptionValue α → Except (OptionFault α) β} {b : β} {value : OptionValue α}

/-- A value is accepted as a number, and then so is every other value that is this number, or it is
a count, or a keyword. -/
theorem Takes.accepted_cases (takes : Takes set) (accepted : set value = .ok b) :
    (∃ name v, value.number name = .ok v ∧
      ∀ other : OptionValue α, (∀ name, other.number name = .ok v) → set other = .ok b) ∨
    (∃ i, value = .integer i) ∨ ∃ s ∈ keywords, value = .text s := by
  cases takes with
  | number name through =>
    obtain ⟨next, factors⟩ := through
    rw [factors] at accepted
    obtain ⟨v, isNumber, stored⟩ := bind_ok accepted
    refine .inl ⟨name, v, isNumber, fun other same => ?_⟩
    dsimp only at factors
    rw [factors, same name]
    exact stored
  | count name through =>
    obtain ⟨next, factors⟩ := through
    rw [factors] at accepted
    cases value with
    | integer i => exact .inr (.inl ⟨i, rfl⟩)
    | numeric _ | text _ => cases accepted
  | keyword name words through listed =>
    obtain ⟨next, factors⟩ := through
    rw [factors] at accepted
    obtain ⟨choice, chosen, -⟩ := bind_ok accepted
    cases value with
    | numeric _ | integer _ => cases chosen
    | text s =>
      dsimp only [OptionValue.keyword] at chosen
      split at chosen
      · rename_i found
        obtain ⟨before, after, rfl, -⟩ := List.lookup_eq_some_iff.mp found
        refine .inr (.inr ⟨s, ?_, rfl⟩)
        exact listed _ (List.mem_append_right before List.mem_cons_self)
      · cases chosen
  | nothing fault refuses =>
    rw [refuses] at accepted
    cases accepted

/-- Another value that is the same number is accepted alike. -/
theorem Takes.of_number (takes : Takes set) {v : α} (accepted : set (.numeric v) = .ok b)
    (same : ∀ name, value.number name = .ok v) : set value = .ok b := by
  obtain ⟨name, u, isNumber, others⟩ | ⟨i, count⟩ | ⟨s, -, word⟩ := takes.accepted_cases accepted
  · rw [OptionValue.number] at isNumber
    split at isNumber
    · cases isNumber
      exact others value same
    · cases isNumber
  · cases count
  · cases word

/-- A text is accepted only if it is a keyword. -/
theorem Takes.mem_keywords (takes : Takes set) {s : String} (accepted : set (.text s) = .ok b) :
    s ∈ keywords := by
  obtain ⟨name, u, isNumber, -⟩ | ⟨i, count⟩ | ⟨word, listed, same⟩ :=
    takes.accepted_cases accepted
  · cases isNumber
  · cases count
  · cases same
    exact listed

/-- An option that accepts a text refuses every number. -/
theorem Takes.refuses_number (takes : Takes set) {s : String} (accepted : set (.text s) = .ok b)
    (notText : ∀ other, value ≠ .text other) : ∃ fault, set value = .error fault := by
  cases takes with
  | number name through | count name through =>
    obtain ⟨next, factors⟩ := through
    rw [factors] at accepted
    cases accepted
  | keyword name words through listed =>
    obtain ⟨next, factors⟩ := through
    dsimp only at factors
    rw [factors]
    cases value with
    | numeric _ | integer _ => exact ⟨_, rfl⟩
    | text other => exact absurd rfl (notText other)
  | nothing fault refuses =>
    rw [refuses] at accepted
    cases accepted

end Accepted

end OptionValue

open OptionValue

variable {α : Type} [Scalar α]

-- the cases are the checks that options make, not the options
theorem InteriorSettings.assignment_takes (name : String) :
    Takes (InteriorSettings.assignment (α := α) name) := by
  change Takes fun value => _
  unfold InteriorSettings.assignment
  split
  all_goals first
    | exact .number _ ((positive_through _).bind _)
    | exact .number _ ((inRange_through _ _ _).bind _)
    | exact .number _ ((openUnit_through _).bind _)
    | exact .number _ ((Through.refl _).bind _)
    | exact .count _ ((level_through _).bind _)
    | exact .count _ ((Through.refl _).bind _)
    | exact .keyword _ _ ((Through.refl _).bind _) (by decide)
    | exact .nothing _ fun _ => rfl

theorem PenaltySettings.outerAssignment_takes (name : String) :
    Takes (PenaltySettings.outerAssignment (α := α) name) := by
  change Takes fun value => _
  unfold PenaltySettings.outerAssignment
  split
  all_goals first
    | exact .number _ ((positive_through _).bind _)
    | exact .number _ ((inRange_through _ _ _).bind _)
    | exact .number _ ((Through.refl _).bind _)
    | exact .count _ ((level_through _).bind _)
    | exact .count _ ((Through.refl _).bind _)
    | exact .keyword _ _ ((Through.refl _).bind _) (by decide)
    | exact .nothing _ fun _ => rfl

theorem PenaltySettings.assignment_takes (name : String) :
    Takes (PenaltySettings.assignment (α := α) name) := by
  change Takes fun value => _
  unfold PenaltySettings.assignment
  split
  · rename_i rest _
    exact (InteriorSettings.assignment_takes rest).map _
  · exact PenaltySettings.outerAssignment_takes name

end SmoothOpt
