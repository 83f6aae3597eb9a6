-- A sweep runs every entry of a benchmark with one thread, then with two, and so on up to the
-- number of threads that the entry asks for. Each of these steps makes an engine of its own.
import EngineBench.Bench.Bench
import EngineBench.Bench.Result
import EngineBench.Definition.Benchmark

namespace EngineBench

/-- Switches of a sweep. -/
structure SweepOptions where
  trace : Bool
  skipLimit : Bool
  overhead : Bool
  deriving DecidableEq, Repr

/-! ## Programs -/

inductive SweepAsk where
  /-- Asks whether the sweep is cancelled. -/
  | look
  /-- Makes the engine that the acts are about from now on. -/
  | make (config : EngineConfig)
  | act (a : Act)

@[reducible] def SweepAsk.Answer : SweepAsk → Type
  | look => Bool
  | make _ => Except EngineError Unit
  | act a => a.Answer

abbrev SweepWork (α : Type) := ExceptT Failure (Dialogue SweepAsk SweepAsk.Answer) α

namespace SweepWork

variable {α : Type}

def question (q : SweepAsk) : SweepWork q.Answer := ExceptT.lift (Dialogue.question q)

def ofAttempt (r : Attempt α) : SweepWork α := ExceptT.mk (.done r)

/-- The acts of a bench among the questions of a sweep. -/
def acts : ActWork α → Dialogue SweepAsk SweepAsk.Answer α
  | .done a => .done a
  | .ask a next => .ask (.act a) fun answer => acts (next answer)

/-- Runs a program of a bench from a state of the bench. -/
def bench (s : BenchState) (w : BenchWork α) : SweepWork (α × BenchState) :=
  ExceptT.lift (acts (BenchWork.attend s w))

/-- Runs a program on a bench that has not run yet, and fails with it. -/
def stage (w : BenchAttempt α) : SweepWork α := do
  let (r, _) ← bench (.start false) w.run
  ofAttempt r

def refuseIfCancelled : SweepWork Unit := do
  if ← question .look then throw (.ofCause .runCancelled)

end SweepWork

namespace Sweep

open Definition

/-! ## The limit -/

def limitThreads : Nat := 10

def limitIterations : Nat := 1000

def limitName : String := "Limit"

/-- What one step has to show: its rate and its records. -/
structure Step where
  rate : Float
  records : List Record

/-- Reads off what a bench has to show after its run. -/
def outcome (bench : Bench) (s : BenchState) (threads iterations : Nat) : SweepWork Step := do
  let (elapsed, s) ← SweepWork.bench s bench.elapsed
  let (records, _) ← SweepWork.bench s bench.stats
  return ⟨rate (UInt64.ofNat threads) (UInt64.ofNat iterations) elapsed, records⟩

/-- One step of the limit run. -/
def limitStep (iterations threads : Nat) : SweepWork Step := do
  let (result, s) ← SweepWork.bench (.start false) (Bench.spawning.run threads iterations).run
  SweepWork.ofAttempt result
  outcome .spawning s threads iterations

/-- The upper bound on the rates, for one thread up to `threads`. The records are not kept. -/
def limit (threads iterations : Nat) : SweepWork Result := do
  let steps ← (List.range threads).mapM fun k => limitStep iterations (k + 1)
  return {
    name := limitName
    threads := UInt64.ofNat threads
    iterations := UInt64.ofNat iterations
    rates := steps.map Step.rate
    steps := []
    commands := []
    isLimit := true }

/-! ## One entry -/

/-- The bench of one step, with its daemon watched or not. -/
def benchFor (e : Entry) (options : SweepOptions) (inner : LifecycleBench) : Bench :=
  if options.overhead then .watched ⟨inner, e.cgroupPath, e.sampleInterval⟩ else .lifecycle inner

/-- One step: an engine is made and prepared, one container tried, the workers run, and the engine
closed before a failed run is reported. -/
def step (config : EngineConfig) (inner : LifecycleBench) (bench : Bench)
    (threads iterations : Nat) : SweepWork Step := do
  SweepWork.refuseIfCancelled
  let made ← SweepWork.question (.make config)
  SweepWork.ofAttempt ((Attempt.ofEngine made).during (.makingEngine config.kind))
  SweepWork.stage inner.prepare
  let (tried, _) ← SweepWork.bench (.start false) bench.validate.run
  SweepWork.ofAttempt (Attempt.during (.validating bench.name) tried)
  let (result, s) ← SweepWork.bench (.start false) (bench.run threads iterations).run
  SweepWork.stage bench.close
  SweepWork.ofAttempt (Attempt.during (.running bench.name) result)
  outcome bench s threads iterations

/-- Every step of one entry, from one thread on. -/
def entry (b : Benchmark) (e : Entry) (options : SweepOptions) : SweepWork Result := do
  let config ← SweepWork.ofAttempt e.engineConfig
  let w ← SweepWork.ofAttempt (b.workload e options.trace)
  let inner : LifecycleBench := ⟨w, config.kind⟩
  let bench := benchFor e options inner
  let steps ← (List.range e.threads).mapM fun k => step config inner bench (k + 1) e.iterations
  return {
    name := bench.name
    threads := UInt64.ofNat e.threads
    iterations := UInt64.ofNat e.iterations
    rates := steps.map Step.rate
    steps := steps.map Step.records
    commands := b.commands
    isLimit := false }

/-! ## The whole sweep -/

/-- One result for the limit run, unless it is skipped, and one for each entry. The first failure
ends the sweep. -/
def run (b : Benchmark) (options : SweepOptions) : SweepWork (List Result) := do
  let bound ← if options.skipLimit then pure []
    else (fun r => [r]) <$> limit limitThreads limitIterations
  let results ← b.entries.mapM fun e => do
    SweepWork.refuseIfCancelled
    entry b e options
  return bound ++ results

end Sweep

end EngineBench
