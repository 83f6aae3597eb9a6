-- A life cycle bench whose daemon is sampled for as long as the bench runs.
import EngineBench.Bench.Lifecycle

namespace EngineBench

structure WatchedBench where
  inner : LifecycleBench
  /-- The control group of the daemon. Without one its process is looked for. -/
  group : Option String
  interval : Duration
  deriving DecidableEq, Repr

namespace WatchedBench

/-- Finds what the daemon can be sampled through. -/
def findSource (b : WatchedBench) : BenchAttempt SamplerSource := do
  match b.group with
  | some path =>
    let found ← BenchAttempt.act (.watchGroup path)
    return .group (← BenchAttempt.ofAttempt (found.during (.watchingGroup path)))
  | none =>
    let found ← BenchAttempt.act .findDaemon
    let activity := Activity.findingDaemon b.inner.kind
    return .processes (← BenchAttempt.ofAttempt ((Attempt.ofEngine found).during activity))

/-- The sampler that was handed to the bench, or else one for its daemon. -/
def source (b : WatchedBench) : BenchAttempt SamplerSource := do
  if ← BenchAttempt.within .takeSampler then return .given
  let found ← ExceptT.lift b.findSource.run
  BenchAttempt.ofAttempt (Attempt.during (.watchingDaemon b.inner.name) found)

/-- Runs the inner bench between the start and the end of the sampling task. Samples that were lost
with the task do not fail the run. -/
def run (b : WatchedBench) (threads iterations : Nat) : BenchAttempt Unit := do
  if (← BenchAttempt.within .phase) ≠ .created then throw (.ofCause (.alreadyRun b.inner.name))
  let source ← b.source
  let task ← BenchAttempt.act (.startSampling source b.interval)
  let result ← ExceptT.lift (b.inner.run threads iterations).run
  let samples ← BenchAttempt.act (.stopSampling task)
  BenchAttempt.within (.keepSamples (samples.toOption.getD []))
  BenchAttempt.ofAttempt result

/-- The records of the inner bench and the samples, once the samples are there. -/
def stats : BenchWork (List Record) := do
  match ← BenchWork.within .samples with
  | none => return []
  | some samples =>
    let records ← BenchWork.within .result
    return inTimeOrder (records ++ samples.map Record.sample)

/-- A run counts as completed only once its samples are there. -/
def phase : BenchWork RunPhase := do
  match ← BenchWork.within .phase with
  | .completed =>
    match ← BenchWork.within .samples with
    | none => return .running
    | some _ => return .completed
  | p => return p

end WatchedBench

end EngineBench
