-- How the latencies of one command are distributed over the iterations of a run.
import EngineBench.Bench.Record

namespace EngineBench

/-! ## Means and medians -/

/-- A mean or a median before it is rounded to a double. -/
structure Quotient where
  numerator : UInt64
  divisor : UInt64
  deriving DecidableEq, Repr

def Quotient.toFloat (q : Quotient) : Float := q.numerator.toFloat / q.divisor.toFloat

/-- The sum of words, as a word: it wraps round, as the arithmetic of a build does that does not
check it. -/
def wordSum (values : List UInt64) : UInt64 := values.foldl (· + ·) 0

/-- The sum of doubles from left to right. An empty sum is the neutral element -0. -/
def floatSum (values : List Float) : Float := values.foldl (· + ·) (-0.0)

def sorted (values : List UInt64) : List UInt64 := values.mergeSort (fun a b => a ≤ b)

/-- The mean of values of which there is at least one. -/
def meanOf (values : List UInt64) : Quotient := ⟨wordSum values, UInt64.ofNat values.length⟩

/-- The middle value, or half the sum of the two middle values, which wraps round as well. -/
def medianOf (values : List UInt64) : Quotient :=
  let s := sorted values
  let mid := s.length / 2
  if s.length % 2 = 0 then ⟨s.getD (mid - 1) 0 + s.getD mid 0, 2⟩ else ⟨s.getD mid 0, 1⟩

def mean (values : List UInt64) : Float :=
  if values.isEmpty then 0 else (meanOf values).toFloat

def median (values : List UInt64) : Float :=
  if values.isEmpty then 0 else (medianOf values).toFloat

/-- The deviation of a whole population whose mean is `m`. -/
def deviationFrom (m : Float) (values : List UInt64) : Float :=
  let squares := values.map fun v => (v.toFloat - m) * (v.toFloat - m)
  (floatSum squares / (UInt64.ofNat values.length).toFloat).sqrt

def deviation (values : List UInt64) : Float :=
  if values.isEmpty then 0 else deviationFrom (mean values) values

def least (values : List UInt64) : UInt64 := (sorted values).headD 0

def greatest (values : List UInt64) : UInt64 := (sorted values).getLastD 0

/-! ## One command -/

structure Timings where
  min : UInt64
  max : UInt64
  avg : Float
  median : Float
  stddev : Float
  errors : UInt32

def iterations (records : List Record) : List Iteration := records.filterMap Record.iteration?

/-- Each string once, in ascending order. -/
def sortedNames (names : List String) : List String :=
  (names.mergeSort (fun a b => a ≤ b)).eraseReps

/-- Every command that an iteration timed or counted a failure of, each once, in order. -/
def commandsSeen (is : List Iteration) : List String :=
  sortedNames (is.flatMap fun i => i.durations.map (·.1) ++ i.errors.map (·.1))

/-- The milliseconds of one command. An iteration that did not time it adds nothing. -/
def millisOf (command : String) (is : List Iteration) : List UInt64 :=
  is.filterMap fun i => (i.durations.lookup command).map Duration.millis

def errorsOf (command : String) (is : List Iteration) : UInt32 :=
  (is.map fun i => (i.errors.lookup command).getD 0).foldl (· + ·) 0

def timingsOf (command : String) (is : List Iteration) : Timings :=
  let millis := millisOf command is
  { min := least millis
    max := greatest millis
    avg := mean millis
    median := EngineBench.median millis
    stddev := deviation millis
    errors := errorsOf command is }

/-- The timings of every command of a run. The samples among the records are ignored. -/
def timings (records : List Record) : List (String × Timings) :=
  let is := iterations records
  (commandsSeen is).map fun c => (c, timingsOf c is)

end EngineBench
