-- How often the daemon behind an engine is sampled.
import EngineBench.Bench.Duration

namespace EngineBench.Sampler

def standardInterval : Duration := Duration.ofMillis 500

/-- No time at all between two samples stands for the standard interval. -/
def interval (d : Duration) : Duration := if d.nanos = 0 then standardInterval else d

end EngineBench.Sampler
