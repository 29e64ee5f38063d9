import SmoothOpt.Suite.Report

/-!
The command line program: it reads the configuration file, solves, prints and writes the summary
file.
-/
namespace SmoothOpt.Suite

def readText (path : String) : IO (Option String) := do
  try return some (← IO.FS.readFile path)
  catch _ => return none

def timedCase (t : TestProblem Float) (config : Config) (method : Method) : IO (Case × Nat) := do
  let before ← IO.monoMsNow
  let c ← IO.lazyPure fun _ => runCase t config method
  let after ← IO.monoMsNow
  return (c, after - before)

def printCase (objTol : Float) (c : Case × Nat) : IO Unit := do
  IO.println (c.1.row objTol c.2)
  if let some line := c.1.errorLine? then IO.println line

def perform (r : Request) : Answer → IO Unit
  | .listing lines => lines.forM IO.println
  | .cases plan config objTol withSummary => do
    let cases ← plan.mapM fun (t, m) => timedCase t config m
    tableHeader.forM IO.println
    cases.forM (printCase objTol)
    if withSummary then (suiteSummary (cases.map (·.1)) objTol).forM IO.println
    if let some path := r.jsonPath then IO.FS.writeFile path (summaryFile cases)

end SmoothOpt.Suite

/-- Run the program: 0 after an answer, 1 after a failure, 2 after a usage error. -/
def main (args : List String) : IO UInt32 := do
  match SmoothOpt.Suite.Invocation.ofArguments? args with
  | none =>
    IO.eprintln "error: unexpected arguments"
    return 2
  | some .version =>
    IO.println SmoothOpt.Suite.versionLine
    return 0
  | some (.request r) =>
    let file ← match r.configPath with
      | some path => SmoothOpt.Suite.readText path
      | none => pure none
    match r.answer file with
    | .error cause =>
      IO.eprintln ("Error: " ++ cause.message)
      return 1
    | .ok answer =>
      SmoothOpt.Suite.perform r answer
      return 0
