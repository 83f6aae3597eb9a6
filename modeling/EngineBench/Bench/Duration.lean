-- Spans of time, in whole nanoseconds.
import EngineBench.Number.Overflow

namespace EngineBench

structure Duration where
  nanos : Nat
  deriving DecidableEq, Repr

namespace Duration

def zero : Duration := ⟨0⟩

instance : Inhabited Duration := ⟨zero⟩

def ofParts (seconds nanos : Nat) : Duration := ⟨seconds * 1000000000 + nanos⟩

def ofMillis (n : Nat) : Duration := ⟨n * 1000000⟩

def ofSeconds (n : Nat) : Duration := ⟨n * 1000000000⟩

def wholeSeconds (d : Duration) : Nat := d.nanos / 1000000000

def subsecondNanos (d : Duration) : Nat := d.nanos % 1000000000

/-- Whole milliseconds as a word: a span of more than 2^64 milliseconds wraps. -/
def millis (d : Duration) : UInt64 := UInt64.ofNat (d.nanos / 1000000)

/-- Whole milliseconds, with no limit. -/
def wholeMillis (d : Duration) : Nat := d.nanos / 1000000

def toSeconds (d : Duration) : Float :=
  (UInt64.ofNat d.wholeSeconds).toFloat + (UInt64.ofNat d.subsecondNanos).toFloat / 1e9

end Duration

/-- Iterations per second over a whole step: `threads` times `iterations`, as a word, over the
time that it took; nothing per second when it took no time. -/
def rate (threads iterations : UInt64) (elapsed : Duration) : Float :=
  let secs := elapsed.toSeconds
  if secs == 0 then 0 else (threads * iterations).toFloat / secs

/-- The rate as a build computes it. -/
def Build.rate (b : Build) (threads iterations : UInt64) (elapsed : Duration) :
    Except Overflow Float := do
  let secs := elapsed.toSeconds
  if secs == 0 then return 0 else return (← b.multiply threads iterations).toFloat / secs

end EngineBench
