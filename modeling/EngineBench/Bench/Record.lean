-- What a bench brings home: a record for each iteration, and the samples of the daemon's
-- resource usage that were taken meanwhile.
import EngineBench.Bench.Duration

namespace EngineBench

/-- Memory in bytes and CPU in percent of one core. -/
structure Usage where
  mem : UInt64
  cpu : Float

namespace Usage

def zero : Usage := ⟨0, 0⟩

end Usage

/-- One pass through the command list. Both tables are keyed by the command as written. -/
structure Iteration where
  durations : List (String × Duration)
  errors : List (String × UInt32)
  deriving DecidableEq, Repr

/-- Usage of the daemon at a time, in seconds since the epoch. -/
structure Sample where
  time : Int
  usage : Usage

inductive Record where
  | iteration (i : Iteration)
  | sample (s : Sample)

/-- Replaces the value of a key, or adds the key at the end. -/
def put {α : Type} (key : String) (value : α) : List (String × α) → List (String × α)
  | [] => [(key, value)]
  | (k, v) :: rest => if k = key then (key, value) :: rest else (k, v) :: put key value rest

namespace Iteration

def empty : Iteration := ⟨[], []⟩

/-- Notes how long a command took. Of several attempts of one command the last one counts. -/
def timed (i : Iteration) (command : String) (d : Duration) : Iteration :=
  { i with durations := put command d i.durations }

/-- Counts one more failure of a command. -/
def failed (i : Iteration) (command : String) : Iteration :=
  { i with errors := put command ((i.errors.lookup command).getD 0 + 1) i.errors }

end Iteration

namespace Record

def isSample : Record → Bool
  | .iteration _ => false
  | .sample _ => true

/-- The time of a sample; an iteration has none. -/
def time? : Record → Option Int
  | .iteration _ => none
  | .sample s => some s.time

def iteration? : Record → Option Iteration
  | .iteration i => some i
  | .sample _ => none

def sample? : Record → Option Sample
  | .iteration _ => none
  | .sample s => some s

end Record

/-- Whether the first record stands no later than the second: iterations stand before every
sample, and samples stand by their time. -/
def Record.noLater (a b : Record) : Bool :=
  match a.time?, b.time? with
  | none, _ => true
  | some _, none => false
  | some x, some y => x ≤ y

/-- Records in the order of their times. Records of one time keep their order. -/
def inTimeOrder (records : List Record) : List Record := records.mergeSort Record.noLater

end EngineBench
