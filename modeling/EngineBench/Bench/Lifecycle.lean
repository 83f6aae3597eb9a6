-- The bench that takes containers through their life cycle, one container for each iteration.
import EngineBench.Bench.Act

namespace EngineBench

structure LifecycleBench where
  workload : Workload
  kind : Kind
  deriving DecidableEq, Repr

namespace LifecycleBench

def name (b : LifecycleBench) : String := b.workload.name ++ ":" ++ b.kind.name

/-- Makes sure that the engine answers, and removes what earlier runs have left behind. -/
def prepare (b : LifecycleBench) : BenchAttempt Unit := do
  let _ ← BenchAttempt.call (.reachingEngine b.kind) .info
  BenchAttempt.call (.cleaningBefore b.workload.name) .clean

/-- Takes one container through its life, so that a mistake in the definition shows before any
worker starts. It leaves no trace files. -/
def validate (b : LifecycleBench) : BenchAttempt Unit := do
  let w := b.workload
  let wanted : Wanted := ⟨Name.trial, w.image, w.command, w.detached, false⟩
  let c ← BenchAttempt.call (.trying "create") (.create wanted)
  let _ ← BenchAttempt.call (.trying "run") (.operate .run c)
  let _ ← BenchAttempt.call (.trying "stop") (.operate .stop c)
  BenchAttempt.act (.rest EngineCall.quiescence)
  let _ ← BenchAttempt.call (.trying "remove") (.operate .remove c)

/-- Runs all iterations on each of `threads` workers, removes what is left, and keeps the records
whether or not the removal fails. A bench runs once. -/
def run (b : LifecycleBench) (threads iterations : Nat) : BenchAttempt Unit := do
  unless ← BenchAttempt.within .begin do throw (.ofCause (.alreadyRun b.name))
  let (records, elapsed) ← BenchAttempt.act (.work threads iterations (.lifecycle b.workload))
  let cleaned ← BenchAttempt.act (.call .clean)
  BenchAttempt.within (.complete records elapsed)
  BenchAttempt.ofAttempt ((Attempt.ofEngine cleaned).during (.cleaningAfter b.name))

def close (b : LifecycleBench) : BenchAttempt Unit := BenchAttempt.call (.closing b.name) .close

end LifecycleBench

end EngineBench
