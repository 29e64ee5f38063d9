import Mathlib
import SmoothOpt.Proofs.Settings.Assignment
import SmoothOpt.Proofs.Step
import SmoothOpt.Suite.Config

/-!
Overrides are applied item by item, each as a whole or not at all.

Neither the reading of a value nor the decision to accept it looks at the settings. So an item
stands for one change of the configuration or for one refusal, whatever the configuration is, and
the two settings of a bare item take the same value or both refuse it. A list of items does what its
items do in turn, up to the first one that is refused.
-/
namespace SmoothOpt.Suite

open Text

section Offers

variable {β γ : Type} {raw : String}

/-- What becomes of an accepted value plays no part in the choice between the readings. -/
theorem setParsed_map (raw : String) (set : OptionValue Float → Except (OptionFault Float) β)
    (f : β → γ) : setParsed raw (fun v => (set v).map f) = (setParsed raw set).map f := by
  unfold setParsed
  split
  · rfl
  · rename_i first second _
    dsimp only
    cases set first <;> rfl

/-- A text is accepted by one of its readings. -/
theorem exists_of_setParsed {set : OptionValue Float → Except (OptionFault Float) β} {b : β}
    (h : setParsed raw set = .ok b) : ∃ value, set value = .ok b := by
  unfold setParsed at h
  split at h
  · exact ⟨_, h⟩
  · split at h
    · rename_i accepted
      exact ⟨_, accepted.trans h⟩
    · exact ⟨_, h⟩

end Offers

namespace Config

/-- The item assigns the text `raw` to `name`: they stand around its first equals sign, without the
blanks at their ends. -/
def Assigns (item name raw : String) : Prop :=
  ∃ left right, item.toList = left ++ '=' :: right ∧ '=' ∉ left ∧
    name = String.ofList (trimmed left) ∧ raw = String.ofList (trimmed right)

theorem span_ne {c : Char} {left right : List Char} (fresh : c ∉ left) :
    (left ++ c :: right).span (· != c) = (left, c :: right) := by
  have skipped : ∀ l ∈ left, (l != c) = true := by
    intro l mem
    rw [bne_iff_ne]
    rintro rfl
    exact fresh mem
  rw [List.span_eq_takeWhile_dropWhile, List.takeWhile_append_of_pos skipped,
    List.dropWhile_append_of_pos skipped]
  simp

theorem span_of_notMem {c : Char} {l : List Char} (absent : c ∉ l) :
    l.span (· != c) = (l, []) := by
  have skipped : ∀ a ∈ l, (a != c) = true := by
    intro a mem
    rw [bne_iff_ne]
    rintro rfl
    exact absent mem
  rw [List.span_eq_takeWhile_dropWhile, List.takeWhile_eq_self_iff.mpr skipped,
    List.dropWhile_eq_nil_iff.mpr skipped]

theorem splitAssignment?_eq_none_iff {item : String} :
    splitAssignment? item = none ↔ '=' ∉ item.toList := by
  constructor
  · intro unsplit mem
    obtain ⟨left, right, split, fresh⟩ := List.eq_append_cons_of_mem mem
    rw [splitAssignment?, split, span_ne fresh] at unsplit
    cases unsplit
  · intro absent
    rw [splitAssignment?, span_of_notMem absent]

theorem splitAssignment?_eq_some_iff {item name raw : String} :
    splitAssignment? item = some (name, raw) ↔ Assigns item name raw := by
  constructor
  · intro split
    by_cases mem : '=' ∈ item.toList
    · obtain ⟨left, right, around, fresh⟩ := List.eq_append_cons_of_mem mem
      rw [splitAssignment?, around, span_ne fresh] at split
      cases split
      exact ⟨left, right, around, fresh, rfl, rfl⟩
    · rw [splitAssignment?_eq_none_iff.mpr mem] at split
      cases split
  · rintro ⟨left, right, around, fresh, rfl, rfl⟩
    rw [splitAssignment?, around, span_ne fresh]

def onInterior (change : InteriorSettings Float → InteriorSettings Float) (c : Config) : Config :=
  { c with interior := change c.interior }

/-- A change of the augmented Lagrangian method's settings. -/
def onPenalty (change : PenaltySettings Float → PenaltySettings Float) (c : Config) : Config :=
  { c with penalty := change c.penalty }

def onInner (change : InteriorSettings Float → InteriorSettings Float) : Config → Config :=
  onPenalty fun s => { s with inner := change s.inner }

/-- The same change of the interior point method's settings and of the subproblems'. -/
def onBoth (change : InteriorSettings Float → InteriorSettings Float) (c : Config) : Config :=
  onInner change (onInterior change c)

def replaceInterior (p : InteriorSettings.Parameter) (source : Config) : Config → Config :=
  onInterior (p.replace source.interior)

/-- One parameter of the augmented Lagrangian method taken from `source`. -/
def replacePenalty (p : PenaltySettings.Parameter) (source : Config) : Config → Config :=
  onPenalty (p.replace source.penalty)

/-- One parameter of the interior point method and of the subproblems, both taken from the interior
point settings of `source`. -/
def replaceBoth (p : InteriorSettings.Parameter) (source : Config) : Config → Config :=
  onBoth (p.replace source.interior)

def Bare (name : String) : Prop := ∀ rest, name ≠ "ipm." ++ rest ∧ name ≠ "auglagr." ++ rest

theorem bare_iff {name : String} :
    Bare name ↔ stripLead? "auglagr." name = none ∧ stripLead? "ipm." name = none := by
  constructor
  · intro bare
    refine ⟨Option.eq_none_iff_forall_ne_some.mpr fun rest led => ?_,
      Option.eq_none_iff_forall_ne_some.mpr fun rest led => ?_⟩
    · exact (bare rest).2 (eq_append_of_stripLead? led)
    · exact (bare rest).1 (eq_append_of_stripLead? led)
  · rintro ⟨not_penalty, not_interior⟩ rest
    constructor
    · rintro rfl
      rw [stripLead?_append] at not_interior
      cases not_interior
    · rintro rfl
      rw [stripLead?_append] at not_penalty
      cases not_penalty

/-- The two leads begin with different letters. -/
theorem stripLead?_penalty_interior (rest : String) :
    stripLead? "auglagr." ("ipm." ++ rest) = none := by
  rw [stripLead?, String.toList_append, if_neg]
  simp

/-- The call reads `raw` as a value of an option without a look at the configuration, and carries
the change that this value stands for over to the configuration. -/
def Decided {ρ : Type} (call : Config → Except OverrideFault Unit × Config) (raw : String)
    (change? : OptionValue Float → Except (OptionFault Float) (ρ → ρ))
    (carry : (ρ → ρ) → Config → Config) : Prop :=
  call = called fun c =>
    (((setParsed raw change?).map carry).mapError OverrideFault.option).map (· c)

section Targets

variable (name raw : String)

theorem setInterior_decided : Decided (setInterior name raw).outcome raw
    (InteriorSettings.assignment name) onInterior := by
  funext c
  have offered : setParsed raw (c.interior.setOption name) =
      (setParsed raw (InteriorSettings.assignment name)).map (· c.interior) :=
    setParsed_map raw _ _
  unfold setInterior
  rw [Step.outcome_get_bind, offered]
  cases setParsed raw (InteriorSettings.assignment name) <;> rfl

theorem setPenalty_decided : Decided (setPenalty name raw).outcome raw
    (PenaltySettings.assignment name) onPenalty := by
  funext c
  have offered : setParsed raw (c.penalty.setOption name) =
      (setParsed raw (PenaltySettings.assignment name)).map (· c.penalty) :=
    setParsed_map raw _ _
  unfold setPenalty
  rw [Step.outcome_get_bind, offered]
  cases setParsed raw (PenaltySettings.assignment name) <;> rfl

theorem setInner_decided : Decided (setInner name raw).outcome raw
    (InteriorSettings.assignment name) onInner := by
  funext c
  have offered : setParsed raw (c.penalty.inner.setOption name) =
      (setParsed raw (InteriorSettings.assignment name)).map (· c.penalty.inner) :=
    setParsed_map raw _ _
  unfold setInner
  rw [Step.outcome_get_bind, offered]
  cases setParsed raw (InteriorSettings.assignment name) <;> rfl

/-- The second setter of a bare name decides as the first one did, so it never refuses alone. -/
theorem setBoth_decided :
    Decided (do setInterior name raw; setInner name raw : Step OverrideFault Config Unit).outcome
      raw (InteriorSettings.assignment name) onBoth := by
  funext c
  rw [Step.outcome_bind, setInterior_decided]
  cases decided : setParsed raw (InteriorSettings.assignment name) with
  | error _ => rfl
  | ok change =>
    have second := congrFun (setInner_decided name raw) (onInterior change c)
    rw [decided] at second
    exact second

end Targets

/-- If an option sets one parameter of its settings, a call that is decided by it sets that
parameter in the configuration. -/
theorem Decided.setsOne {ρ π : Type} {call : Config → Except OverrideFault Unit × Config}
    {raw : String} {change? : OptionValue Float → Except (OptionFault Float) (ρ → ρ)}
    {carry : (ρ → ρ) → Config → Config} (decided : Decided call raw change? carry)
    {replace : π → ρ → ρ → ρ} {named : π → Prop}
    (copies : ∀ value change, change? value = .ok change → Copies replace named change)
    {part : Config → ρ} (whole : ρ → Config) (part_whole : ∀ s, part (whole s) = s) :
    SetsOne (fun p source => carry (replace p (part source))) named call := by
  rw [decided]
  refine setsOne_of_copies fun carried accepted => ?_
  cases offered : setParsed raw change? with
  | error _ =>
    rw [offered] at accepted
    cases accepted
  | ok change =>
    rw [offered] at accepted
    cases accepted
    obtain ⟨value, assigned⟩ := exists_of_setParsed offered
    obtain ⟨p, source, goesBy, copied⟩ := copies value change assigned
    obtain rfl : change = replace p source := funext copied
    refine ⟨p, whole source, goesBy, fun c => ?_⟩
    simp only [part_whole]

/-- A call that sets one parameter or none leaves the settings when it is refused. -/
theorem leaves_of_setsOne {ρ π φ : Type} {replace : π → ρ → ρ → ρ} {named : π → Prop}
    {call : ρ → Except φ Unit × ρ} (sets : SetsOne replace named call) {s s' : ρ} {fault : φ}
    (refused : call s = (.error fault, s')) : s' = s := by
  cases sets with
  | refused _ leaves =>
    rw [leaves s] at refused
    cases refused
    rfl
  | stored p source goesBy stores =>
    rw [stores s] at refused
    cases refused

section Items

variable {item rest name raw : String} {c c' : Config} {fault : OverrideFault}

theorem applyOverride_of_notMem (absent : '=' ∉ item.toList) (c : Config) :
    (applyOverride item).outcome c = (.error (.notAssignment item), c) := by
  rw [applyOverride, splitAssignment?_eq_none_iff.mpr absent]
  rfl

theorem interior_item_decided (assigns : Assigns item ("ipm." ++ rest) raw) :
    Decided (applyOverride item).outcome raw (InteriorSettings.assignment rest) onInterior := by
  rw [applyOverride, splitAssignment?_eq_some_iff.mpr assigns]
  simp only [stripLead?_penalty_interior, stripLead?_append]
  exact setInterior_decided rest raw

theorem penalty_item_decided (assigns : Assigns item ("auglagr." ++ rest) raw) :
    Decided (applyOverride item).outcome raw (PenaltySettings.assignment rest) onPenalty := by
  rw [applyOverride, splitAssignment?_eq_some_iff.mpr assigns]
  simp only [stripLead?_append]
  exact setPenalty_decided rest raw

theorem bare_item_decided (assigns : Assigns item name raw) (bare : Bare name) :
    Decided (applyOverride item).outcome raw (InteriorSettings.assignment name) onBoth := by
  obtain ⟨not_penalty, not_interior⟩ := bare_iff.mp bare
  rw [applyOverride, splitAssignment?_eq_some_iff.mpr assigns]
  simp only [not_penalty, not_interior]
  exact setBoth_decided name raw

/-- An item for the interior point method sets one of its parameters, or nothing. -/
theorem applyOverride_interior (assigns : Assigns item ("ipm." ++ rest) raw) :
    SetsOne replaceInterior (rest ∈ InteriorSettings.Parameter.names ·)
      (applyOverride item).outcome :=
  (interior_item_decided assigns).setsOne (fun _ _ => InteriorSettings.assignment_copies)
    (fun s => { default with interior := s }) fun _ => rfl

/-- An item for the augmented Lagrangian method sets one of its parameters, or nothing. -/
theorem applyOverride_penalty (assigns : Assigns item ("auglagr." ++ rest) raw) :
    SetsOne replacePenalty (rest ∈ PenaltySettings.Parameter.names ·)
      (applyOverride item).outcome :=
  (penalty_item_decided assigns).setsOne (fun _ _ => PenaltySettings.assignment_copies)
    (fun s => { default with penalty := s }) fun _ => rfl

/-- A bare item sets one parameter of both interior point settings to one value, or nothing. -/
theorem applyOverride_bare (assigns : Assigns item name raw) (bare : Bare name) :
    SetsOne replaceBoth (name ∈ InteriorSettings.Parameter.names ·)
      (applyOverride item).outcome :=
  (bare_item_decided assigns bare).setsOne (fun _ _ => InteriorSettings.assignment_copies)
    (fun s => { default with interior := s }) fun _ => rfl

/-- A refused item leaves the configuration as it is. -/
theorem applyOverride_refused (refused : (applyOverride item).outcome c = (.error fault, c')) :
    c' = c := by
  cases split : splitAssignment? item with
  | none =>
    rw [applyOverride_of_notMem (splitAssignment?_eq_none_iff.mp split)] at refused
    cases refused
    rfl
  | some assigned =>
    obtain ⟨name, raw⟩ := assigned
    have assigns := splitAssignment?_eq_some_iff.mp split
    by_cases bare : Bare name
    · exact leaves_of_setsOne (applyOverride_bare assigns bare) refused
    · rw [Bare, not_forall] at bare
      obtain ⟨rest, led⟩ := bare
      rw [not_and_or, not_not, not_not] at led
      obtain rfl | rfl := led
      · exact leaves_of_setsOne (applyOverride_interior assigns) refused
      · exact leaves_of_setsOne (applyOverride_penalty assigns) refused

end Items

/-- The items lead from one configuration to another, each of them accepted where the one before it
has led. -/
inductive Applied : List String → Config → Config → Prop
  | done (c : Config) : Applied [] c c
  | next {item : String} {items : List String} {c c₁ c' : Config}
      (accepted : (applyOverride item).outcome c = (.ok (), c₁)) (rest : Applied items c₁ c') :
      Applied (item :: items) c c'

/-- Overrides succeed if each of them is accepted in turn. -/
theorem applyOverrides_ok_iff {items : List String} {c c' : Config} :
    (applyOverrides items).outcome c = (.ok (), c') ↔ Applied items c c' := by
  induction items generalizing c with
  | nil =>
    constructor
    · rintro ⟨⟩
      exact .done _
    · rintro ⟨⟩
      rfl
  | cons item items ih =>
    rw [applyOverrides, Step.outcome_bind_ok]
    constructor
    · rintro ⟨_, c₁, accepted, rest⟩
      exact .next accepted (ih.mp rest)
    · rintro (_ | ⟨accepted, rest⟩)
      exact ⟨(), _, accepted, ih.mpr rest⟩

/-- Otherwise they stop at an item that is refused after all the items before it were accepted. -/
theorem applyOverrides_error_iff {items : List String} {c c' : Config} {fault : OverrideFault} :
    (applyOverrides items).outcome c = (.error fault, c') ↔
      ∃ before item after, items = before ++ item :: after ∧ Applied before c c' ∧
        (applyOverride item).outcome c' = (.error fault, c') := by
  induction items generalizing c with
  | nil =>
    constructor
    · rintro ⟨⟩
    · rintro ⟨before, item, after, split, -⟩
      simp at split
  | cons first items ih =>
    rw [applyOverrides, Step.outcome_bind_error]
    constructor
    · rintro (refused | ⟨_, c₁, accepted, rest⟩)
      · obtain rfl := applyOverride_refused refused
        exact ⟨[], first, items, rfl, .done _, refused⟩
      · obtain ⟨before, item, after, rfl, applied, refused⟩ := ih.mp rest
        exact ⟨first :: before, item, after, rfl, .next accepted applied, refused⟩
    · rintro ⟨before, item, after, split, applied, refused⟩
      cases applied with
      | done =>
        cases split
        exact .inl refused
      | next accepted rest =>
        cases split
        exact .inr ⟨(), _, accepted, ih.mpr ⟨_, item, after, rfl, rest, refused⟩⟩

/-- Overrides apply the items before the first refused one, all of them if none is refused. An item
without an equals sign is refused. An item under the lead `ipm.` is refused, by any configuration
alike, or sets one parameter of the interior point method and nothing else; one under `auglagr.`
does the same to the augmented Lagrangian method; a bare one sets the same parameter of the interior
point method and of the subproblems to the same value, or is refused and sets neither. -/
theorem overrides_apply_whole_items :
    (∀ items c c', (applyOverrides items).outcome c = (.ok (), c') ↔ Applied items c c') ∧
    (∀ items c fault c', (applyOverrides items).outcome c = (.error fault, c') ↔
      ∃ before item after, items = before ++ item :: after ∧ Applied before c c' ∧
        (applyOverride item).outcome c' = (.error fault, c')) ∧
    (∀ item fault c c', (applyOverride item).outcome c = (.error fault, c') → c' = c) ∧
    (∀ item c, '=' ∉ item.toList →
      (applyOverride item).outcome c = (.error (.notAssignment item), c)) ∧
    (∀ item rest raw, Assigns item ("ipm." ++ rest) raw →
      SetsOne replaceInterior (rest ∈ InteriorSettings.Parameter.names ·)
        (applyOverride item).outcome) ∧
    (∀ item rest raw, Assigns item ("auglagr." ++ rest) raw →
      SetsOne replacePenalty (rest ∈ PenaltySettings.Parameter.names ·)
        (applyOverride item).outcome) ∧
    ∀ item name raw, Assigns item name raw → Bare name →
      SetsOne replaceBoth (name ∈ InteriorSettings.Parameter.names ·)
        (applyOverride item).outcome :=
  ⟨fun _ _ _ => applyOverrides_ok_iff, fun _ _ _ _ => applyOverrides_error_iff,
    fun _ _ _ _ => applyOverride_refused, fun _ c absent => applyOverride_of_notMem absent c,
    fun _ _ _ => applyOverride_interior, fun _ _ _ => applyOverride_penalty,
    fun _ _ _ => applyOverride_bare⟩

/-- The first override sets both limits and stays; the second names no option, and the third is not
reached. -/
theorem unknown_second_override :
    (applyOverrides ["max_iter=5", "ipm.bogus=1", "verbosity=2"]).outcome default =
      (.error (.option (.unknown "bogus")), onBoth (fun s => { s with maxIter := 5 }) default) := by
  obtain ⟨-, stops, -⟩ := overrides_apply_whole_items
  refine (stops _ _ _ _).mpr ⟨["max_iter=5"], "ipm.bogus=1", ["verbosity=2"], rfl, ?_, rfl⟩
  exact .next rfl (.done _)

end Config

end SmoothOpt.Suite
