-- Resource usage of a daemon over a run, and the comparison of two runs.
import EngineBench.Stats.Timings
import EngineBench.Number.Binary

namespace EngineBench

structure Metrics where
  minMem : UInt64
  maxMem : UInt64
  avgMem : Float
  minCpu : Float
  maxCpu : Float
  avgCpu : Float

def Metrics.zero : Metrics := ⟨0, 0, 0, 0, 0, 0⟩

def samples (records : List Record) : List Usage :=
  records.filterMap fun r => r.sample?.map Sample.usage

/-- Doubles in the total order that also places the NaNs. -/
def sortedFloats (values : List Float) : List Float :=
  values.mergeSort fun a b => Number.orderKey a ≤ Number.orderKey b

/-- Summarises the samples of a run. The iterations among the records are ignored. -/
def metrics (records : List Record) : Metrics :=
  let usages := samples records
  if usages.isEmpty then Metrics.zero
  else
    let mem := usages.map Usage.mem
    let cpu := usages.map Usage.cpu
    let inOrder := sortedFloats cpu
    { minMem := least mem
      maxMem := greatest mem
      avgMem := mean mem
      minCpu := inOrder.headD 0
      maxCpu := inOrder.getLastD 0
      avgCpu := floatSum cpu / (UInt64.ofNat cpu.length).toFloat }

/-- The ratio of `after` to `before`. Two zeros are no change, and growth from zero has no
bound. -/
def delta (before after : Float) : Float :=
  if before != 0 then after / before
  else if after == 0 then 1
  else 1 / 0

/-- How a run compares with a baseline: the change of the mean memory in percent, and the factor
on the mean CPU. -/
structure Overhead where
  memPercent : Float
  cpuFactor : Float

def overhead (baseline comparison : Metrics) : Overhead where
  memPercent := 100 * delta baseline.avgMem comparison.avgMem - 100
  cpuFactor := delta baseline.avgCpu comparison.avgCpu

end EngineBench
