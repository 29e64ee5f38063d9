import Mathlib
import SmoothOpt.Proofs.Decimal.Reader
import SmoothOpt.Proofs.Settings.Reading
import SmoothOpt.Proofs.Suite.Override

/-!
Which option values an override can express.

A value is spelled by its keyword or by a literal that reads back as it. The text of an override is
offered as an integer, then as a real number, and as a keyword only if it is neither. For a literal
this makes no difference, as an integer and the real number of the same literal are the same number
to an option. But a keyword that is a numeral is never offered as a keyword.
-/
namespace SmoothOpt.Suite

open Decimal OptionValue

/-- The text is a literal that reads as the value, or the value is this text. -/
inductive Spells : String → OptionValue Float → Prop
  | integer {raw : String} {i : Int} (reads : readInteger raw = some i) : Spells raw (.integer i)
  | numeric {raw : String} {v : Float} (reads : readReal raw = some v) : Spells raw (.numeric v)
  | text (s : String) : Spells s (.text s)

/-- The text of a value that an override takes for another value: a keyword that is a numeral, and
an integer literal for minus zero, whose sign an integer does not have. -/
inductive Misread : String → OptionValue Float → Prop
  | numeral {s : String} (digit : s = "0" ∨ s = "1") : Misread s (.text s)
  | minusZero {raw : String} (reads : readInteger raw = some 0) : Misread raw (.numeric (-0.0))

/-- An integer of 64 bits is spelled by its text. -/
theorem spells_toString {i : Int} (fits : fitsWord i = true) : Spells (toString i) (.integer i) :=
  .integer (readInteger_toString fits)

section Readings

variable {raw : String} {value : OptionValue Float}

theorem readings_of_integer {i : Int} (reads : readInteger raw = some i) :
    readings raw = (.integer i, some (.numeric (Float.ofInt i))) := by
  rw [readings, reads]

theorem readings_of_real {v : Float} (noInteger : readInteger raw = none)
    (reads : readReal raw = some v) : readings raw = (.numeric v, none) := by
  rw [readings, noInteger, reads]

/-- A keyword is no number, unless it is one of the two numerals, and has no blank. -/
theorem keywords_read : ∀ s ∈ keywords, Solid s.toList ∧
    (s = "0" ∨ s = "1" ∨ readInteger s = none ∧ readReal s = none) := by
  decide +kernel

/-- The text that spells a value has no blank if the value is accepted by some option. -/
theorem Spells.solid {β : Type} {set : OptionValue Float → Except (OptionFault Float) β} {b : β}
    (spells : Spells raw value) (takes : Takes set) (accepted : set value = .ok b) :
    Solid raw.toList := by
  cases spells with
  | integer reads =>
    obtain real | ⟨-, real⟩ := readReal_of_readInteger reads <;> exact solid_of_readReal real
  | numeric reads => exact solid_of_readReal reads
  | text => exact (keywords_read raw (takes.mem_keywords accepted)).1

/-- A text that spells an accepted value is accepted with the same effect. -/
theorem setParsed_of_spells {β : Type} {set : OptionValue Float → Except (OptionFault Float) β}
    {b : β} (takes : Takes set) (accepted : set value = .ok b) (spells : Spells raw value)
    (clear : ¬Misread raw value) : setParsed raw set = .ok b := by
  cases spells with
  | integer reads =>
    rw [setParsed, readings_of_integer reads]
    simp only [accepted]
  | @numeric v reads =>
    cases integer : readInteger raw with
    | none =>
      rw [setParsed, readings_of_real integer reads]
      exact accepted
    | some i =>
      -- the literal is offered as an integer first, and that is the same number to the option
      obtain real | ⟨rfl, real⟩ := readReal_of_readInteger integer
      · obtain rfl : Float.ofInt i = v := Option.some.inj (real.symm.trans reads)
        have same : set (.integer i) = .ok b := takes.of_number accepted fun _ => rfl
        rw [setParsed, readings_of_integer integer]
        simp only [same]
      · obtain rfl : -0.0 = v := Option.some.inj (real.symm.trans reads)
        exact absurd (.minusZero integer) clear
  | text =>
    obtain zero | one | ⟨noInteger, noReal⟩ := (keywords_read raw (takes.mem_keywords accepted)).2
    · exact absurd (.numeral (.inl zero)) clear
    · exact absurd (.numeral (.inr one)) clear
    · rw [setParsed, readings, noInteger, noReal]
      exact accepted

/-- An option with a numeral among its keywords refuses the numeral in an override. -/
theorem setParsed_numeral {β : Type} {set : OptionValue Float → Except (OptionFault Float) β}
    {b : β} (takes : Takes set) (accepted : set (.text raw) = .ok b)
    (digit : raw = "0" ∨ raw = "1") : ∃ fault, setParsed raw set = .error fault := by
  have reads : ∃ i, readInteger raw = some i := by
    obtain rfl | rfl := digit
    · exact ⟨0, by decide⟩
    · exact ⟨1, by decide⟩
  obtain ⟨i, reads⟩ := reads
  have refused : ∃ fault, set (.integer i) = .error fault :=
    takes.refuses_number accepted (by rintro _ ⟨⟩)
  obtain ⟨fault, refused⟩ := refused
  rw [setParsed, readings_of_integer reads]
  simp only [refused]
  exact takes.refuses_number accepted (by rintro _ ⟨⟩)

end Readings

namespace Config

/-- The settings that the name of an override stands for. -/
inductive Target where
  | interior
  | penalty
  | both

namespace Target

def lead : Target → String
  | interior => "ipm."
  | penalty => "auglagr."
  | both => ""

def override (t : Target) (name raw : String) : String := t.lead ++ name ++ "=" ++ raw

def setOption (t : Target) (c : Config) (name : String) (value : OptionValue Float) :
    Except (OptionFault Float) Config :=
  match t with
  | interior => do
    let s ← c.interior.setOption name value
    return { c with interior := s }
  | penalty => do
    let s ← c.penalty.setOption name value
    return { c with penalty := s }
  | both => do
    let s ← c.interior.setOption name value
    let inner ← c.penalty.inner.setOption name value
    return { interior := s, penalty := { c.penalty with inner := inner } }

end Target

def Target.Named (t : Target) (name : String) : Prop :=
  match t with
  | interior | both => ∃ p, name ∈ InteriorSettings.Parameter.names p
  | penalty => ∃ p, name ∈ PenaltySettings.Parameter.names p

section Names

variable {t : Target} {name raw : String}

/-- No option name has an equals sign or a blank. -/
theorem Target.Named.writable (named : t.Named name) : '=' ∉ name.toList ∧ Solid name.toList := by
  have interior : ∀ p ∈ InteriorSettings.Parameter.all, ∀ name ∈ p.names,
      '=' ∉ name.toList ∧ Solid name.toList := by
    decide +kernel
  have penalty : ∀ p ∈ PenaltySettings.Parameter.all, ∀ name ∈ p.names,
      '=' ∉ name.toList ∧ Solid name.toList := by
    decide +kernel
  cases t <;> obtain ⟨p, goesBy⟩ := named
  · exact interior p p.mem_all name goesBy
  · exact penalty p p.mem_all name goesBy
  · exact interior p p.mem_all name goesBy

/-- No name of an interior point option has a lead. -/
theorem bare_of_named (named : Target.both.Named name) : Bare name := by
  have all : ∀ p ∈ InteriorSettings.Parameter.all, ∀ name ∈ p.names,
      stripLead? "auglagr." name = none ∧ stripLead? "ipm." name = none := by
    decide +kernel
  obtain ⟨p, goesBy⟩ := named
  exact bare_iff.mpr (all p p.mem_all name goesBy)

theorem assigns_override (named : t.Named name) (solid : Solid raw.toList) :
    Assigns (t.override name raw) (t.lead ++ name) raw := by
  obtain ⟨fresh, whole⟩ := named.writable
  have lead : '=' ∉ t.lead.toList ∧ Solid t.lead.toList := by
    cases t <;> decide
  refine ⟨(t.lead ++ name).toList, raw.toList, ?_, ?_, ?_, ?_⟩
  · simp [Target.override]
  · rw [String.toList_append, List.mem_append, not_or]
    exact ⟨lead.1, fresh⟩
  · rw [String.toList_append, (lead.2.append whole).trimmed_eq, ← String.toList_append,
      String.ofList_toList]
  · rw [solid.trimmed_eq, String.ofList_toList]

end Names

section Offered

variable {t : Target} {name raw : String} {c c' : Config} {value : OptionValue Float}

/-- A decided call offers the readings of its text to the setter that its option makes. -/
theorem Decided.offers {ρ : Type} {call : Config → Except OverrideFault Unit × Config}
    {change? : OptionValue Float → Except (OptionFault Float) (ρ → ρ)}
    {carry : (ρ → ρ) → Config → Config} (decided : Decided call raw change? carry)
    {set : Config → OptionValue Float → Except (OptionFault Float) Config}
    (sets : ∀ c, set c = fun value => (change? value).map (carry · c)) :
    call = called fun c => (setParsed raw (set c)).mapError .option := by
  rw [decided]
  congr 1
  funext c
  rw [sets, setParsed_map]
  cases setParsed raw change? <;> rfl

theorem setOption_interior (c : Config) (name : String) :
    Target.interior.setOption c name =
      fun value => (InteriorSettings.assignment name value).map (onInterior · c) := by
  funext value
  unfold Target.setOption InteriorSettings.setOption
  cases InteriorSettings.assignment name value <;> rfl

theorem setOption_penalty (c : Config) (name : String) :
    Target.penalty.setOption c name =
      fun value => (PenaltySettings.assignment name value).map (onPenalty · c) := by
  funext value
  unfold Target.setOption PenaltySettings.setOption
  cases PenaltySettings.assignment name value <;> rfl

theorem setOption_both (c : Config) (name : String) :
    Target.both.setOption c name =
      fun value => (InteriorSettings.assignment name value).map (onBoth · c) := by
  funext value
  unfold Target.setOption InteriorSettings.setOption
  cases InteriorSettings.assignment name value <;> rfl

theorem setOption_takes (t : Target) (c : Config) (name : String) :
    Takes (t.setOption c name) := by
  cases t with
  | interior =>
    rw [setOption_interior]
    exact (InteriorSettings.assignment_takes name).map _
  | penalty =>
    rw [setOption_penalty]
    exact (PenaltySettings.assignment_takes name).map _
  | both =>
    rw [setOption_both]
    exact (InteriorSettings.assignment_takes name).map _

theorem named_of_accepted (accepted : t.setOption c name value = .ok c') : t.Named name := by
  cases t with
  | interior =>
    rw [setOption_interior] at accepted
    obtain ⟨change, offered, -⟩ := map_ok accepted
    obtain ⟨p, -, goesBy, -⟩ := InteriorSettings.assignment_copies offered
    exact ⟨p, goesBy⟩
  | penalty =>
    rw [setOption_penalty] at accepted
    obtain ⟨change, offered, -⟩ := map_ok accepted
    obtain ⟨p, -, goesBy, -⟩ := PenaltySettings.assignment_copies offered
    exact ⟨p, goesBy⟩
  | both =>
    rw [setOption_both] at accepted
    obtain ⟨change, offered, -⟩ := map_ok accepted
    obtain ⟨p, -, goesBy, -⟩ := InteriorSettings.assignment_copies offered
    exact ⟨p, goesBy⟩

/-- An override of an option offers the readings of its text to the option of its target. -/
theorem override_offers (named : t.Named name) (solid : Solid raw.toList) :
    (applyOverride (t.override name raw)).outcome =
      called fun c => (setParsed raw (t.setOption c name)).mapError .option := by
  have assigns := assigns_override named solid
  cases t with
  | interior => exact (interior_item_decided assigns).offers (setOption_interior · name)
  | penalty => exact (penalty_item_decided assigns).offers (setOption_penalty · name)
  | both =>
    rw [Target.lead, String.empty_append] at assigns
    exact (bare_item_decided assigns (bare_of_named named)).offers (setOption_both · name)

/-- An accepted value has the same effect as the override that spells it. -/
theorem applyOverrides_spelled (accepted : t.setOption c name value = .ok c')
    (spells : Spells raw value) (clear : ¬Misread raw value) :
    (applyOverrides [t.override name raw]).outcome c = (.ok (), c') := by
  have takes := setOption_takes t c name
  have parsed := setParsed_of_spells takes accepted spells clear
  refine applyOverrides_ok_iff.mpr (.next ?_ (.done _))
  rw [override_offers (named_of_accepted accepted) (spells.solid takes accepted), called, parsed]
  rfl

/-- A keyword that is a numeral is refused. -/
theorem applyOverrides_numeral (accepted : t.setOption c name (.text raw) = .ok c')
    (digit : raw = "0" ∨ raw = "1") :
    ∃ fault, (applyOverrides [t.override name raw]).outcome c = (.error fault, c) := by
  have takes := setOption_takes t c name
  obtain ⟨fault, refused⟩ := setParsed_numeral takes accepted digit
  refine ⟨.option fault, applyOverrides_error_iff.mpr ⟨[], _, [], rfl, .done _, ?_⟩⟩
  rw [override_offers (named_of_accepted accepted) ((Spells.text raw).solid takes accepted), called,
    refused]
  rfl

end Offered

/-- A value that the options of a target accept is set by the override with the name and the text of
the value: the digits of an integer, a literal that reads as a real number, or a keyword. The two
numerals among the keywords are refused, and the sign of minus zero is lost with an integer literal.
-/
theorem accepted_values_have_overrides (t : Target) (c : Config) (name : String) :
    (∀ i, fitsWord i = true → Spells (toString i) (.integer i)) ∧
    (∀ c' value raw, t.setOption c name value = .ok c' → Spells raw value → ¬Misread raw value →
      (applyOverrides [t.override name raw]).outcome c = (.ok (), c')) ∧
    ∀ c' raw, t.setOption c name (.text raw) = .ok c' → raw = "0" ∨ raw = "1" →
      ∃ fault, (applyOverrides [t.override name raw]).outcome c = (.error fault, c) :=
  ⟨fun _ => spells_toString, fun _ _ _ => applyOverrides_spelled, fun _ _ => applyOverrides_numeral⟩

/-- The second keyword of a choice is as good as the first, and an integer is written with its
digits; the option of a switch refuses its numeral. -/
theorem saturating_growth_by_alias :
    Spells (toString (50 : Int)) (.integer 50) ∧
    (applyOverrides ["auglagr.penalty_update=max"]).outcome default =
      (.ok (), onPenalty (fun s => { s with growth := .saturating }) default) ∧
    ∃ fault, (applyOverrides ["auglagr.stop_on_inner_failure=0"]).outcome default =
      (.error fault, default) := by
  have growth : Target.penalty.override "penalty_update" "max" = "auglagr.penalty_update=max" := by
    decide
  have switch : Target.penalty.override "stop_on_inner_failure" "0" =
      "auglagr.stop_on_inner_failure=0" := by
    decide
  have clear : ¬Misread "max" (.text "max") := by
    rintro (digit | -)
    revert digit
    decide
  obtain ⟨digits, spelled, -⟩ :=
    accepted_values_have_overrides .penalty default "penalty_update"
  obtain ⟨-, -, refused⟩ :=
    accepted_values_have_overrides .penalty default "stop_on_inner_failure"
  rw [← growth, ← switch]
  exact ⟨digits 50 rfl, spelled _ _ _ rfl (.text "max") clear, refused _ _ rfl (.inl rfl)⟩

/-- The numeral that selects Newton updates of the multipliers is a keyword of the option, but its
override is refused. -/
theorem newton_updates_by_numeral :
    Target.interior.setOption default "dualsUpdateType" (.text "1") =
      .ok (onInterior (fun s => { s with multiplierUpdate := .newton }) default) ∧
    (applyOverrides ["ipm.dualsUpdateType=1"]).outcome default =
      (.error (.option (.notKeyword "dualsUpdateType" (.numeric 1))), default) :=
  ⟨rfl, rfl⟩

end Config

end SmoothOpt.Suite
