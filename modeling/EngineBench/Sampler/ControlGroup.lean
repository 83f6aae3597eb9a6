-- Samples a daemon through the accounting files of its control group. A sample charges the CPU time
-- since the last good sample, so that a sample which cannot be taken loses nothing.
import EngineBench.Bench.Record
import EngineBench.Failure
import EngineBench.Host.Files

namespace EngineBench

/-! ## Counters -/

namespace Counter

/-- Goes on with a number below 2^64 whose digits so far make `n`. -/
def readDigits (n : Nat) : List Char → Except Cause UInt64
  | [] => .ok (UInt64.ofNat n)
  | c :: s =>
    if c.isDigit then
      let n := n * 10 + (c.toNat - 48)
      if n < UInt64.size then readDigits n s else .error .numberTooLarge
    else .error (.notANumber false)

/-- A number in decimal digits, with a plus sign in front or without. -/
def ofDigits : List Char → Except Cause UInt64
  | [] => .error (.notANumber true)
  | ['+'] => .error (.notANumber false)
  | '+' :: s => readDigits 0 s
  | s => readDigits 0 s

/-- The text of a file, or why it cannot be read. -/
def fileText (files : Host.Files) (path : String) : Attempt (List Char) :=
  match files.readText path with
  | .ok text => .ok text.toList
  | .error e => .error ((Failure.ofCause (.os e)).during (.reading path))

/-- The number that a file consists of. -/
def ofFile (files : Host.Files) (path : String) : Attempt UInt64 := do
  let text ← fileText files path
  match ofDigits (Text.trim text) with
  | .ok n => return n
  | .error cause => throw ((Failure.ofCause cause).during (.understanding path))

/-- The number that a file consists of, or zero if there is none. -/
def ofFileOrZero (files : Host.Files) (path : String) : UInt64 :=
  match ofFile files path with
  | .ok n => n
  | .error _ => 0

/-- The microseconds that a line states, if it is the line that states them. -/
def microsOfLine (line : List Char) : Option UInt64 :=
  match Text.cutAt (· == ' ') line with
  | some (key, value) =>
    if key = "usage_usec".toList then (ofDigits (Text.trim value)).toOption else none
  | none => none

/-- The CPU time in microseconds of an account with one figure in each line. -/
def usageMicros (account : List Char) : Option UInt64 := (Text.lines account).findSome? microsOfLine

end Counter

/-! ## Accounts -/

/-- The directories with the accounts of a group. -/
inductive Accounts where
  /-- One directory for every kind of resource. -/
  | unified (dir : String)
  | split (memory cpu : String)
  deriving DecidableEq, Repr

namespace Accounts

/-- Finds the accounts of a group below the root of all groups. -/
def locate (files : Host.Files) (root group : String) : Accounts :=
  let relative := String.ofList (group.toList.dropWhile (· == '/'))
  if files.exists? (Host.join root "cgroup.controllers") then .unified (Host.join root relative)
  else .split (Host.join (Host.join root "memory") relative)
    (Host.join (Host.join root "cpuacct") relative)

/-- Memory in bytes: what is in use and what was swapped out, or what the kernel uses for the
group. -/
def memory (files : Host.Files) : Accounts → Attempt UInt64
  | .unified dir => do
    let current ← Counter.ofFile files (Host.join dir "memory.current")
    return current + Counter.ofFileOrZero files (Host.join dir "memory.swap.current")
  | .split dir _ => do
    let used ← match Counter.ofFile files (Host.join dir "memory.memsw.usage_in_bytes") with
      | .ok n => pure n
      | .error _ => Counter.ofFile files (Host.join dir "memory.usage_in_bytes")
    return used + Counter.ofFileOrZero files (Host.join dir "memory.kmem.usage_in_bytes")

/-- CPU time in nanoseconds. -/
def cpuTime (files : Host.Files) : Accounts → Attempt UInt64
  | .unified dir => do
    let path := Host.join dir "cpu.stat"
    match Counter.usageMicros (← Counter.fileText files path) with
    | some micros => return micros * 1000
    | none => throw (.ofCause (.noCpuUsage path))
  | .split _ dir => Counter.ofFile files (Host.join dir "cpuacct.usage")

end Accounts

/-! ## Samples -/

/-- A control group, with the CPU time at the last good sample and the moment of that sample, both
in nanoseconds. -/
structure ControlGroup where
  accounts : Accounts
  cpuTime : UInt64
  moment : Nat
  deriving DecidableEq, Repr

/-- What one sample measures: memory in use, the CPU time charged, and the time in which it was
used. -/
structure Reading where
  mem : UInt64
  charged : UInt64
  elapsed : Nat
  deriving DecidableEq, Repr

/-- A reading with its CPU time as a share of the time that has passed, in percent. -/
def Reading.usage (r : Reading) : Usage where
  mem := r.mem
  cpu := if r.elapsed = 0 then 0 else r.charged.toFloat / (UInt64.ofNat r.elapsed).toFloat * 100

/-- What a counter has gained. One that went backwards has gained nothing. -/
def gain (before after : UInt64) : UInt64 := if before ≤ after then after - before else 0

namespace ControlGroup

/-- Where the groups of a host are mounted. -/
def mountPoint : String := "/sys/fs/cgroup"

/-- Starts to watch a group. The CPU time so far is charged to no sample. -/
def watch (files : Host.Files) (now : Nat) (root group : String) : Attempt ControlGroup := do
  let accounts := Accounts.locate files root group
  return ⟨accounts, ← accounts.cpuTime files, now⟩

/-- Reads the accounts of a group. Memory is read first, and a reading that fails leaves the group
as it was. -/
def read (files : Host.Files) (now : Nat) (g : ControlGroup) : Attempt Reading × ControlGroup :=
  match g.accounts.memory files with
  | .error f => (.error f, g)
  | .ok mem =>
    match g.accounts.cpuTime files with
    | .error f => (.error f, g)
    | .ok cpuTime =>
      (.ok ⟨mem, gain g.cpuTime cpuTime, now - g.moment⟩,
        { g with cpuTime := cpuTime, moment := now })

end ControlGroup

end EngineBench
