-- The bench without an engine: it only spawns processes, and so bounds the rate that any engine
-- with a command line can reach.
import EngineBench.Bench.Act

namespace EngineBench.SpawningBench

def name : String := "Limit benchmark: No driver"

def run (threads iterations : Nat) : BenchAttempt Unit := do
  unless ← BenchAttempt.within .begin do throw (.ofCause (.alreadyRun name))
  let (records, elapsed) ← BenchAttempt.act (.work threads iterations .spawning)
  BenchAttempt.within (.complete records elapsed)

end EngineBench.SpawningBench
