import SmoothOpt.Decimal.Reader
import SmoothOpt.Failure.Message
import SmoothOpt.Settings.Option
import SmoothOpt.Settings.Fields
import SmoothOpt.Step
import SmoothOpt.Text.Blank
import SmoothOpt.Text.Toml.Reader

/-!
Settings of both solvers, from a configuration file and from overrides on the command line.

An override is a text `name=value`. The name selects its target by its beginning: `ipm.` the
interior point method, `auglagr.` the augmented Lagrangian method, and a bare name both the
interior point method and the subproblems. A value is read as an integer if it is one, else as a
real number, else as a keyword; an integer that is refused is offered once more as a real number.
-/
namespace SmoothOpt.Suite

open Text

structure Config where
  interior : InteriorSettings Float
  penalty : PenaltySettings Float

inductive OverrideFault where
  | notAssignment (item : String)
  | option (cause : OptionFault Float)

def OverrideFault.message : OverrideFault → String
  | notAssignment item => "override '" ++ item ++ "' is not name=value"
  | option cause => (Failure.invalidOption cause).message

/-- The values a text stands for, in the order they are offered. -/
def readings (raw : String) : OptionValue Float × Option (OptionValue Float) :=
  match Decimal.readInteger raw with
  | some i => (.integer i, some (.numeric (Float.ofInt i)))
  | none => match Decimal.readReal raw with
    | some v => (.numeric v, none)
    | none => (.text raw, none)

/-- Offer the readings of a text to a setter in turn; the last refusal counts. -/
def setParsed {β : Type} (raw : String) (set : OptionValue Float → Except (OptionFault Float) β) :
    Except (OptionFault Float) β :=
  match readings raw with
  | (first, none) => set first
  | (first, some second) => match set first with
    | .ok v => .ok v
    | .error _ => set second

namespace Config

def default : Config := ⟨InteriorSettings.default, PenaltySettings.default⟩

def fields : List (RecordField Config) :=
  [RecordField.of "ipm" InteriorSettings.read (fun v c => { c with interior := v })
     (·.interior.document),
   RecordField.of "auglagr" PenaltySettings.read (fun v c => { c with penalty := v })
     (·.penalty.document)]

def read (file : String) : Option Config := do
  readRecord fields default (← Toml.read file)

def withVerbosity (c : Config) (level : Nat) : Config :=
  { interior := { c.interior with verbosity := level }
    penalty := { c.penalty with verbosity := level } }

/-- A name and a value around the first equals sign, without the blanks around them. -/
def splitAssignment? (item : String) : Option (String × String) :=
  match item.toList.span (· != '=') with
  | (name, _ :: raw) => some (String.ofList (trimmed name), String.ofList (trimmed raw))
  | (_, []) => none

def setInterior (name raw : String) : Step OverrideFault Config Unit := do
  let c ← get
  match setParsed raw (c.interior.setOption name) with
  | .ok s => set { c with interior := s }
  | .error cause => throw (.option cause)

def setPenalty (name raw : String) : Step OverrideFault Config Unit := do
  let c ← get
  match setParsed raw (c.penalty.setOption name) with
  | .ok s => set { c with penalty := s }
  | .error cause => throw (.option cause)

def setInner (name raw : String) : Step OverrideFault Config Unit := do
  let c ← get
  match setParsed raw (c.penalty.inner.setOption name) with
  | .ok s => set { c with penalty := { c.penalty with inner := s } }
  | .error cause => throw (.option cause)

def applyOverride (item : String) : Step OverrideFault Config Unit :=
  match splitAssignment? item with
  | none => throw (.notAssignment item)
  | some (name, raw) =>
    match stripLead? "auglagr." name with
    | some rest => setPenalty rest raw
    | none => match stripLead? "ipm." name with
      | some rest => setInterior rest raw
      | none => do
        setInterior name raw
        setInner name raw

/-- Apply overrides in order up to the first that is refused; what was applied stays. -/
def applyOverrides : List String → Step OverrideFault Config Unit
  | [] => return
  | item :: rest => do
    applyOverride item
    applyOverrides rest

end Config

end SmoothOpt.Suite
