-- The resource usage of a process and everything below it in the process table.
import EngineBench.Bench.Record
import EngineBench.Failure

namespace EngineBench

structure ProcessEntry where
  pid : UInt32
  parent : Option UInt32
  name : String
  mem : UInt64
  cpu : Float32

/-- The process table, in the order in which it was read. A pid may occur twice. -/
abbrev ProcessTable := List ProcessEntry

namespace ProcessTable

/-- The last entry of a pid. -/
def find (table : ProcessTable) (pid : UInt32) : Option ProcessEntry :=
  List.find? (fun p => p.pid == pid) (List.reverse table)

/-- The pids whose entry names `pid` as the parent. -/
def children (table : ProcessTable) (pid : UInt32) : List UInt32 :=
  (List.filter (fun p : ProcessEntry => p.parent == some pid) table).map ProcessEntry.pid

/-- What one pid adds: the usage of its process, if its name is asked for. -/
def share (names : List String) (table : ProcessTable) (pid : UInt32) : Option ProcessEntry :=
  (table.find pid).filter fun p => names.contains p.name

/-- Walks the pids of a queue and everything below them, each pid once. `fresh` holds the pids
that were not visited yet. -/
def walk (table : ProcessTable) (fresh queue : List UInt32) : List UInt32 :=
  match queue with
  | [] => []
  | pid :: rest =>
    if _h : pid ∈ fresh then
      pid :: walk table (fresh.erase pid) (rest ++ table.children pid)
    else walk table fresh rest
termination_by (fresh.length, queue.length)
decreasing_by
  · apply Prod.Lex.left
    rw [List.length_erase_of_mem _h]
    have := List.length_pos_of_mem _h
    omega
  · apply Prod.Lex.right
    simp

/-- The pids at and below `root`, breadth first. -/
def reach (table : ProcessTable) (root : UInt32) : List UInt32 :=
  walk table (root :: List.map ProcessEntry.pid table).eraseDups [root]

/-- Sums the usage of `root` and of everything below it whose name is in `names`. The walk goes on
below a process whose name is not. -/
def usage (root : UInt32) (names : List String) (table : ProcessTable) : Usage :=
  let found := (table.reach root).filterMap (table.share names)
  { mem := (found.map ProcessEntry.mem).foldl (· + ·) 0
    cpu := (found.map fun p => p.cpu.toFloat).foldl (· + ·) 0 }

/-- A sample of the daemon whose process is `root`, or an error if that process is gone. -/
def usageOf (root : UInt32) (names : List String) (table : ProcessTable) : Attempt Usage :=
  if (table.find root).isSome then .ok (usage root names table)
  else .error (.ofCause (.daemonGone root.toNat))

end ProcessTable

/-- The usage of a process tree as a build sums it. -/
def Build.usage (b : Build) (root : UInt32) (names : List String) (table : ProcessTable) :
    Except Overflow Usage := do
  let found := (table.reach root).filterMap (table.share names)
  let mem ← b.sum (found.map ProcessEntry.mem)
  return { ProcessTable.usage root names table with mem := mem }

end EngineBench
