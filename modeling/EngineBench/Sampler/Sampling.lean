-- The task that samples a daemon at a steady pace until it is told to stop. When a tick is due and
-- the task has been told to stop, it may take either first; a run of the task is therefore a list
-- of events, and a law about it holds for every list that the task admits.
import EngineBench.Bench.Record
import EngineBench.Failure
import EngineBench.Sampler.Interval

namespace EngineBench

/-- How a query of the daemon ended. -/
inductive Query where
  | measured (s : Sample)
  | failed
  /-- The query took the task down with it. -/
  | fatal

namespace Sampling

inductive Phase where
  | running
  | left
  | dead
  deriving DecidableEq, Repr

structure Task where
  phase : Phase
  /-- Whether the task has been told to stop. -/
  stopping : Bool
  samples : List Sample

def Task.start : Task := ⟨.running, false, []⟩

inductive Event where
  | tick (q : Query)
  | stop
  | leave

namespace Task

/-- One event, if the task admits it: it makes no query once it is over, and it leaves only when it
was told to stop. A failed query leaves no trace. -/
def step (t : Task) : Event → Option Task
  | .tick q =>
    if t.phase = .running then
      match q with
      | .measured s => some { t with samples := t.samples ++ [s] }
      | .failed => some t
      | .fatal => some { t with phase := .dead }
    else none
  | .stop => some { t with stopping := true }
  | .leave => if t.phase = .running && t.stopping then some { t with phase := .left } else none

def steps (t : Task) (events : List Event) : Option Task := events.foldlM step t

/-- What the task hands back once it is over: its samples in the order of the queries, or nothing
but an error if a query took it down. -/
def result? (t : Task) : Option (Attempt (List Sample)) :=
  match t.phase with
  | .running => none
  | .left => some (.ok t.samples)
  | .dead => some (.error (.ofCause .samplingDied))

end Task

/-! ## Sampling for a while -/

/-- The ticks that come before the end of a span. The first one comes after one interval, and one
that is due at the very end comes too late. -/
def tickTimes (interval span : Duration) : List Duration :=
  (List.range ((span.nanos - 1) / interval.nanos)).map fun k => ⟨(k + 1) * interval.nanos⟩

/-- What a task hands back that makes these queries and is then told to stop. -/
def collect : List Query → Attempt (List Sample)
  | [] => .ok []
  | .measured s :: rest => (collect rest).map (s :: ·)
  | .failed :: rest => collect rest
  | .fatal :: _ => .error (.ofCause .samplingDied)

end Sampling

end EngineBench
