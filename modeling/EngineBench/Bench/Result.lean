-- What a sweep has to show for one entry of a benchmark.
import EngineBench.Bench.Record

namespace EngineBench

/-- The results of one entry, step by step: place k - 1 of `rates` and of `steps` belongs to the
step with k threads. -/
structure Result where
  name : String
  threads : UInt64
  iterations : UInt64
  rates : List Float
  steps : List (List Record)
  commands : List String
  isLimit : Bool

end EngineBench
