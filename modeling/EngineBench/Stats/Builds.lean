-- The statistics of a run as a build of the program computes them: every sum of words is a sum of
-- that build, so that one which checks its arithmetic may stop on the way.
import EngineBench.Number.Overflow
import EngineBench.Stats.Metrics

namespace EngineBench.Build

variable (b : Build)

def meanOf (values : List UInt64) : Except Overflow Quotient := do
  return ⟨← b.sum values, UInt64.ofNat values.length⟩

def medianOf (values : List UInt64) : Except Overflow Quotient := do
  let s := sorted values
  let mid := s.length / 2
  if s.length % 2 = 0 then return ⟨← b.add (s.getD (mid - 1) 0) (s.getD mid 0), 2⟩
  else return ⟨s.getD mid 0, 1⟩

def mean (values : List UInt64) : Except Overflow Float := do
  if values.isEmpty then return 0 else return (← b.meanOf values).toFloat

def median (values : List UInt64) : Except Overflow Float := do
  if values.isEmpty then return 0 else return (← b.medianOf values).toFloat

/-- The mean is taken once more for the deviation from it. -/
def deviation (values : List UInt64) : Except Overflow Float := do
  if values.isEmpty then return 0 else return deviationFrom (← b.mean values) values

def errorsOf (command : String) (is : List Iteration) : Except Overflow UInt32 :=
  b.sumCounts (is.map fun i => (i.errors.lookup command).getD 0)

def timingsOf (command : String) (is : List Iteration) : Except Overflow Timings := do
  let millis := millisOf command is
  let errors ← b.errorsOf command is
  let avg ← b.mean millis
  let median ← b.median millis
  let stddev ← b.deviation millis
  return ⟨least millis, greatest millis, avg, median, stddev, errors⟩

/-- The timings of every command of a run, unless one of its sums stops the program. -/
def timings (records : List Record) : Except Overflow (List (String × Timings)) :=
  let is := iterations records
  (commandsSeen is).mapM fun c => do return (c, ← b.timingsOf c is)

/-- Of the figures of a daemon the mean of its memory alone is made of a sum of words. -/
def metrics (records : List Record) : Except Overflow Metrics := do
  let avgMem ← b.mean ((samples records).map Usage.mem)
  return { EngineBench.metrics records with avgMem := avgMem }

end EngineBench.Build
