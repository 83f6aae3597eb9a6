-- Why a run of the program fails: a cause, and around it what the program was doing, from the
-- inside out.
import EngineBench.Definition.Problem
import EngineBench.Engine.Error
import EngineBench.Engine.Name

namespace EngineBench

/-- What the program was doing when it failed. -/
inductive Activity where
  | reading (path : String)
  | understanding (path : String)
  | loading (path : String)
  | choosingEngine
  | makingEngine (kind : Kind)
  | reachingEngine (kind : Kind)
  | cleaningBefore (benchmark : String)
  | trying (operation : String)
  | cleaningAfter (bench : String)
  | closing (bench : String)
  | validating (bench : String)
  | running (bench : String)
  | watchingDaemon (bench : String)
  | watchingGroup (path : String)
  | findingDaemon (kind : Kind)
  deriving DecidableEq, Repr

def Activity.message : Activity → String
  | .reading path => "Unable to read " ++ path
  | .understanding path => "Unexpected contents in " ++ path
  | .loading path => "Error reading benchmark file " ++ path
  | .choosingEngine => "Unknown driver in benchmark"
  | .makingEngine kind => "Unable to create " ++ kind.name ++ " driver"
  | .reachingEngine kind => kind.name ++ " driver is not reachable"
  | .cleaningBefore benchmark => "Unable to clean up before " ++ benchmark
  | .trying operation => "Validation failed to " ++ operation ++ " " ++ Name.trial
  | .cleaningAfter bench => "Final cleanup of " ++ bench ++ " failed"
  | .closing bench => "Unable to close driver for " ++ bench
  | .validating bench => "Error during bench validate of " ++ bench
  | .running bench => "Error during bench run of " ++ bench
  | .watchingDaemon bench => "Unable to sample the daemon behind " ++ bench
  | .watchingGroup path => "Unable to sample cgroup " ++ path
  | .findingDaemon kind => "Unable to find the daemon for the " ++ kind.name ++ " driver"

inductive Cause where
  | engine (e : EngineError)
  | definition (p : Definition.Problem)
  | os (e : OsError)
  /-- A file of the control groups should hold a number and does not. -/
  | notANumber (isEmpty : Bool)
  | numberTooLarge
  | noCpuUsage (path : String)
  | daemonGone (pid : Nat)
  | alreadyRun (bench : String)
  | runCancelled
  | samplingDied
  deriving DecidableEq, Repr

/-- The message of a cause and of the causes that it keeps apart from itself. -/
def Cause.chain : Cause → List String
  | .engine e => e.chain
  | .definition p => [p.message]
  | .os e => [e.message]
  | .notANumber isEmpty =>
    [if isEmpty then "cannot parse integer from empty string" else "invalid digit found in string"]
  | .numberTooLarge => ["number too large to fit in target type"]
  | .noCpuUsage path => ["No usage_usec in " ++ path]
  | .daemonGone pid => ["daemon process " ++ toString pid ++ " not found"]
  | .alreadyRun bench => ["Benchmark " ++ bench ++ " has already been run"]
  | .runCancelled => ["Benchmark run cancelled"]
  | .samplingDied => ["Sampling task failed to exit cleanly"]

structure Failure where
  /-- The outermost activity stands first. -/
  activities : List Activity
  cause : Cause
  deriving DecidableEq, Repr

namespace Failure

def ofCause (cause : Cause) : Failure := ⟨[], cause⟩

def ofEngine (e : EngineError) : Failure := .ofCause (.engine e)

def ofProblem (p : Definition.Problem) : Failure := .ofCause (.definition p)

def during (activity : Activity) (f : Failure) : Failure :=
  { f with activities := activity :: f.activities }

/-- The outermost activity, or the cause if there is none. -/
def headline (f : Failure) : String :=
  match f.activities with
  | a :: _ => a.message
  | [] => f.cause.chain.headD ""

def message (f : Failure) : String :=
  String.intercalate ": " (f.activities.map Activity.message ++ f.cause.chain)

end Failure

/-- A result that fails with its cause and circumstances. -/
abbrev Attempt (α : Type) := Except Failure α

namespace Attempt

variable {α : Type}

def ofEngine (r : Except EngineError α) : Attempt α :=
  match r with
  | .ok a => .ok a
  | .error e => .error (.ofEngine e)

/-- Notes what was being done, should it have failed. -/
def during (activity : Activity) (r : Attempt α) : Attempt α :=
  match r with
  | .ok a => .ok a
  | .error f => .error (f.during activity)

end Attempt

end EngineBench
