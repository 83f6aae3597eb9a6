-- The whole program: its arguments, the benchmark file, the sweep, and what it prints at the end.
import EngineBench.Cli.Help
import EngineBench.Definition.File
import EngineBench.Rehearsal.OnHost
import EngineBench.Report.Summary

namespace EngineBench.Cli

/-- How the program ends and what it has written by then. -/
structure Ending where
  code : UInt8
  out : String
  err : String
  deriving DecidableEq, Repr

/-! ## Failures -/

/-- One cause of a failure, indented and numbered if there is more than one. -/
def causeLine (isNumbered : Bool) (i : Nat) (cause : String) : String :=
  if isNumbered then "    " ++ toString i ++ ": " ++ cause ++ "\n" else "    " ++ cause ++ "\n"

/-- A failure with the causes below its headline. -/
def account (f : Failure) : String :=
  let causes := (f.activities.map Activity.message ++ f.cause.chain).tail
  let below := match causes with
    | [] => ""
    | _ => "\nCaused by:\n" ++ String.join (causes.zipIdx.map fun (cause, i) =>
        causeLine (causes.length > 1) i cause)
  "Error: " ++ f.headline ++ "\n" ++ below

def Ending.ofFailure (f : Failure) : Ending := ⟨1, "", account f⟩

/-- Help and version that were asked for are no failure; everything else is a misuse. -/
def Ending.ofRefusal (colour : Bool) : Refusal → Ending
  | .helpWanted l => ⟨0, helpText l, ""⟩
  | .versionWanted => ⟨0, versionLine colour, ""⟩
  | .nothingAsked => ⟨2, "", helpText .top⟩
  | r => ⟨2, "", "error: " ++ r.message ++ "\n"⟩

/-! ## The program -/

/-- Runs the sweep of a benchmark on a host, and prints the report. -/
def runBenchmark (colour : Bool) (script : Host.Script) (options : SweepOptions)
    (definition : Attempt Definition.Benchmark) : Ending :=
  match definition with
  | .error f => .ofFailure f
  | .ok b =>
    let world := Rehearsal.World.start (Rehearsal.HostStage.start script [])
    match ((Rehearsal.World.sweep Rehearsal.onHost (Sweep.run b options)).run world).1 with
    | .error f => .ofFailure f
    | .ok results => ⟨0, Report.text colour options.overhead results, ""⟩

/-- Does what the arguments ask for, on a host. -/
def run (colour : Bool) (script : Host.Script) (words : List String) : Ending :=
  match Arguments.read words with
  | .error r => .ofRefusal colour r
  | .ok a =>
    match a.command with
    | .version => ⟨0, versionLine colour, ""⟩
    | .run file options =>
      runBenchmark colour script options (Definition.Benchmark.ofFile script.host.files file)

end EngineBench.Cli
