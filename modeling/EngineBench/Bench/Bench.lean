-- The kinds of bench, under one roof.
import EngineBench.Bench.Spawning
import EngineBench.Bench.Watched

namespace EngineBench

inductive Bench where
  | lifecycle (b : LifecycleBench)
  | spawning
  | watched (b : WatchedBench)
  deriving DecidableEq, Repr

namespace Bench

/-- The word for the kind of a bench. -/
def word : Bench → String
  | lifecycle _ => "Custom"
  | spawning => "Limit"
  | watched _ => "Overhead"

def name : Bench → String
  | lifecycle b => b.name
  | spawning => SpawningBench.name
  | watched b => b.inner.name

/-- Tries the bench out before it runs. Where there is no engine there is nothing to try. -/
def validate : Bench → BenchAttempt Unit
  | lifecycle b => b.validate
  | spawning => return ()
  | watched b => b.inner.validate

/-- Runs all iterations on each of `threads` workers. -/
def run (threads iterations : Nat) : Bench → BenchAttempt Unit
  | lifecycle b => b.run threads iterations
  | spawning => SpawningBench.run threads iterations
  | watched b => b.run threads iterations

/-- The records of a run that is over. -/
def stats : Bench → BenchWork (List Record)
  | watched _ => WatchedBench.stats
  | _ => BenchWork.within .result

def phase : Bench → BenchWork RunPhase
  | watched _ => WatchedBench.phase
  | _ => BenchWork.within .phase

/-- How long the workers took. -/
def elapsed (_ : Bench) : BenchWork Duration := BenchWork.within .elapsed

def close : Bench → BenchAttempt Unit
  | lifecycle b => b.close
  | spawning => return ()
  | watched b => b.inner.close

end Bench

end EngineBench
