import SmoothOpt.Suite.Case

/-!
The command line: `list`, `run <name>` and `suite`, with options before or after the command.

Options are long (`--option value`, `--option=value`) or short (`-o value`, `-ovalue`,
`-o=value`), and a separate value may not itself look like an option. An option given at both
levels counts at the inner one.
-/
namespace SmoothOpt.Suite

inductive Command where
  | list
  | run (name : String) (method : Method)
  | suite (methods : List Method) (objTol : Float)

structure Request where
  configPath : Option String
  overrides : List String
  verbosity : Nat
  jsonPath : Option String
  command : Command

inductive Invocation where
  /-- The name and version of the program; nothing after it is looked at. -/
  | version
  | request (r : Request)

inductive Flag where
  | config
  | option
  | verbosity
  | json
  | solver
  | objTol
  deriving DecidableEq, Repr

inductive CommandWord where
  | list
  | run
  | suite
  deriving DecidableEq, Repr

namespace Flag

/-- Options that every level knows. -/
def ofLong? (sub : Option CommandWord) : String → Option Flag
  | "config" => some config
  | "option" => some option
  | "verbosity" => some verbosity
  | "json" => some json
  | "solver" => if sub = some .run ∨ sub = some .suite then some solver else none
  | "obj-tol" => if sub = some .suite then some objTol else none
  | _ => none

def ofShort? (sub : Option CommandWord) : Char → Option Flag
  | 'c' => some config
  | 'o' => some option
  | 'v' => some verbosity
  | 's' => if sub = some .run ∨ sub = some .suite then some solver else none
  | _ => none

def repeats (sub : Option CommandWord) : Flag → Bool
  | option => true
  | solver => sub = some .suite
  | _ => false

/-- Whether the value of an option is a path, which may not be empty. -/
def isPath : Flag → Bool
  | config | json => true
  | _ => false

end Flag

def looksLikeFlag (arg : String) : Bool := arg.startsWith "-" && arg != "-"

inductive Argument where
  | flag (f : Flag) (attached : Option String)
  | rest
  | version
  | word (s : String)
  | unknown

/-- The value attached to a short option; an equals sign in front of it is dropped. -/
def attachedShort (cs : List Char) : Option String :=
  match cs with
  | [] => none
  | '=' :: rest => some (String.ofList rest)
  | _ => some (String.ofList cs)

def classify (sub : Option CommandWord) (arg : String) : Argument :=
  if !looksLikeFlag arg then .word arg
  else if sub.isNone && (arg == "--version" || arg.startsWith "-V") then .version
  else match arg.toList with
    | ['-', '-'] => .rest
    | '-' :: '-' :: long =>
      let (name, value) := long.span (· != '=')
      match Flag.ofLong? sub (String.ofList name) with
      | none => .unknown
      | some f => .flag f (match value with | [] => none | _ :: v => some (String.ofList v))
    | '-' :: c :: attached => match Flag.ofShort? sub c with
      | none => .unknown
      | some f => .flag f (attachedShort attached)
    | _ => .unknown

structure Collected where
  flags : List (Flag × String) := []
  words : List String := []

def Collected.values (c : Collected) (f : Flag) : List String :=
  (c.flags.filter (·.1 = f)).map (·.2)

inductive LevelEnd where
  | exhausted
  | version
  /-- A word at the outer level, with the arguments after it. -/
  | word (w : String) (rest : List String)

/-- One level of arguments. At the outer level the first word or a question for the version ends
the level, and the options may not be closed before a command. -/
def collect (sub : Option CommandWord) (acc : Collected) :
    List String → Option (Collected × LevelEnd)
  | [] => some (acc, .exhausted)
  | arg :: rest =>
    let take (f : Flag) (v : String) : Option Collected :=
      if (!f.repeats sub && !(acc.values f).isEmpty) || (f.isPath && v.isEmpty) then none
      else some { acc with flags := acc.flags ++ [(f, v)] }
    match classify sub arg with
    | .unknown => none
    | .version => some (acc, .version)
    | .rest => sub.map fun _ => ({ acc with words := acc.words ++ rest }, .exhausted)
    | .word w => match sub with
      | none => some (acc, .word w rest)
      | some _ => collect sub { acc with words := acc.words ++ [w] } rest
    | .flag f (some v) => (take f v).bind fun acc => collect sub acc rest
    | .flag f none => match rest with
      | [] => none
      | v :: rest =>
        if looksLikeFlag v then none else (take f v).bind fun acc => collect sub acc rest

/-- A log level: a whole number up to 255. -/
def readLevel? (s : String) : Option Nat := do
  let v ← Decimal.readInteger s
  if 0 ≤ v ∧ v < 256 then some v.toNat else none

def command? (word : CommandWord) (c : Collected) : Option Command :=
  match word, c.words with
  | .list, [] => some .list
  | .run, [name] => do
    let methods ← (c.values .solver).mapM Method.ofName?
    return .run name (methods.head?.getD .interior)
  | .suite, [] => do
    let methods ← (c.values .solver).mapM Method.ofName?
    let objTol ← (c.values .objTol).head?.elim (some 1e-4) Decimal.readReal
    return .suite (if methods.isEmpty then Method.all else methods) objTol
  | _, _ => none

def commandWord? : String → Option CommandWord
  | "list" => some .list
  | "run" => some .run
  | "suite" => some .suite
  | _ => none

def Collected.levels (c : Collected) : Option (List Nat) := (c.values .verbosity).mapM readLevel?

/-- The request of a command word between two levels of options. -/
def request? (outer : Collected) (word : String) (rest : List String) : Option Request := do
  let word ← commandWord? word
  let (inner, _) ← collect (some word) {} rest
  let command ← command? word inner
  let outerLevels ← outer.levels
  let innerLevels ← inner.levels
  let chosen (f : Flag) : List String :=
    if (inner.values f).isEmpty then outer.values f else inner.values f
  return {
    configPath := (chosen .config).head?
    overrides := chosen .option
    verbosity := (innerLevels ++ outerLevels).head?.getD 0
    jsonPath := (chosen .json).head?
    command := command }

/-- Read the arguments; `none` for a usage error. -/
def Invocation.ofArguments? (args : List String) : Option Invocation := do
  match ← collect none {} args with
  | (_, .exhausted) => none
  | (outer, .version) => outer.levels.map fun _ => .version
  | (outer, .word w rest) => .request <$> request? outer w rest

end SmoothOpt.Suite
