import SmoothOpt.Suite.Arguments

/-!
Answering a request of the command line.

Everything but reading the configuration file, measuring time and printing happens here.
-/
namespace SmoothOpt.Suite

open Decimal

def programName : String := "nlp-bench"

def versionLine : String := programName ++ " 0.1.0"

inductive Answer where
  | listing (lines : List String)
  /-- Cases to be solved in order, with the tolerance of the marks; a suite ends in a summary. -/
  | cases (plan : List (TestProblem Float × Method)) (config : Config) (objTol : Float)
      (withSummary : Bool)

inductive RequestFault where
  | unreadableConfig (path : String)
  | malformedConfig (path : String)
  | override (cause : OverrideFault)
  | unknownProblem (name : String)

def RequestFault.message : RequestFault → String
  | unreadableConfig path => "failed to read config " ++ path
  | malformedConfig path => "failed to parse config " ++ path
  | override cause => cause.message
  | unknownProblem name =>
    "unknown problem '" ++ name ++ "'; try `" ++ programName ++ " list`"

/-- The configuration a request asks for. `file` is the text of its configuration file. -/
def Request.config (r : Request) (file : Option String) : Except RequestFault Config := do
  let base ← match r.configPath with
    | none => .ok Config.default
    | some path => match file with
      | none => .error (.unreadableConfig path)
      | some text => match Config.read text with
        | none => .error (.malformedConfig path)
        | some c => .ok c
  match (Config.applyOverrides r.overrides).outcome (base.withVerbosity r.verbosity) with
  | (.ok (), c) => .ok c
  | (.error cause, _) => .error (.override cause)

def Request.answer (r : Request) (file : Option String) : Except RequestFault Answer := do
  let config ← r.config file
  match r.command with
  | .list => return .listing (registry.map TestProblem.listing)
  | .run name method => match find? name with
    | none => .error (.unknownProblem name)
    | some t => return .cases [(t, method)] config 1e-4 false
  | .suite methods objTol =>
    let plan := registry.flatMap fun t => methods.map fun m => (t, m)
    return .cases plan config objTol true

/-- A number in a summary file, `null` if it is not finite. -/
def jsonNumber (v : Float) : String := if v.isFinite then tagged v else "null"

def jsonChar (c : Char) : String :=
  match c with
  | '"' => "\\\""
  | '\\' => "\\\\"
  | '\n' => "\\n"
  | '\r' => "\\r"
  | '\t' => "\\t"
  | '\x08' => "\\b"
  | '\x0c' => "\\f"
  | c => if c.toNat < 32 then "\\u" ++ String.ofList (List.replicate 2 '0')
      ++ (if c.toNat < 16 then "0" else "") ++ String.ofList (Nat.toDigits 16 c.toNat)
    else c.toString

def jsonText (s : String) : String := "\"" ++ String.join (s.toList.map jsonChar) ++ "\""

def Case.jsonEntries (c : Case) (milliseconds : Nat) : List (String × String) :=
  [("problem", jsonText c.problem), ("solver", jsonText c.method.name),
   ("status", jsonText c.status.name), ("iters", toString c.iters),
   ("inner_iters", toString c.innerIters), ("obj_val", jsonNumber c.obj),
   ("obj_rel_err", jsonNumber c.objError), ("err_feas", jsonNumber c.errFeas),
   ("err_optim", jsonNumber c.errOptim), ("solve_time_ms", toString milliseconds),
   ("error", c.error.elim "null" jsonText)]

/-- A summary file, indented by two blanks a level. -/
def summaryFile (cases : List (Case × Nat)) : String :=
  let entry (kv : String × String) : String := "    " ++ jsonText kv.1 ++ ": " ++ kv.2
  let object (c : Case × Nat) : String :=
    "  \x7b\n" ++ ",\n".intercalate ((c.1.jsonEntries c.2).map entry) ++ "\n  \x7d"
  if cases.isEmpty then "[]" else "[\n" ++ ",\n".intercalate (cases.map object) ++ "\n]"

end SmoothOpt.Suite
