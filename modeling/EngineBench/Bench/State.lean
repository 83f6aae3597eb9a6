-- What a bench remembers of its one run. It can be read while the run is in flight, so everything
-- that reads or changes it is a section of its own: a section happens at once, and other callers
-- may come between two sections.
import EngineBench.Bench.Record

namespace EngineBench

inductive RunPhase where
  | created
  | running
  | completed
  deriving DecidableEq, Repr

/-! ## The state of a run -/

structure RunState where
  phase : RunPhase
  records : List Record
  elapsed : Duration

namespace RunState

def start : RunState := ⟨.created, [], Duration.zero⟩

/-- Starts the run. Only the first one to ask gets it. -/
def begin? (s : RunState) : Option RunState :=
  if s.phase = .created then some { s with phase := .running } else none

theorem begin?_of_created {s : RunState} (h : s.phase = .created) :
    s.begin? = some { s with phase := .running } := if_pos h

theorem begin?_of_begun {s : RunState} (h : s.phase ≠ .created) : s.begin? = none := if_neg h

def complete (records : List Record) (elapsed : Duration) (_ : RunState) : RunState :=
  ⟨.completed, records, elapsed⟩

/-- The records of a run that is over. Of any other run there are none yet. -/
def result (s : RunState) : List Record := if s.phase = .completed then s.records else []

end RunState

/-! ## The state of a bench -/

structure BenchState where
  run : RunState
  /-- Whether a sampler was handed to the bench and is not in use yet. -/
  hasSampler : Bool
  /-- The samples of the daemon, once they are all there. -/
  samples : Option (List Sample)

def BenchState.start (hasSampler : Bool) : BenchState := ⟨.start, hasSampler, none⟩

inductive Section where
  | begin
  | complete (records : List Record) (elapsed : Duration)
  | phase
  | result
  | elapsed
  | takeSampler
  | keepSamples (samples : List Sample)
  | samples

namespace Section

@[reducible] def Answer : Section → Type
  | begin => Bool
  | complete _ _ => Unit
  | phase => RunPhase
  | result => List Record
  | elapsed => Duration
  | takeSampler => Bool
  | keepSamples _ => Unit
  | samples => Option (List Sample)

/-- What a section gives, and the state that it leaves. -/
def perform (s : BenchState) : (q : Section) → q.Answer × BenchState
  | .begin =>
    match s.run.begin? with
    | some run => (true, { s with run := run })
    | none => (false, s)
  | .complete found took => ((), { s with run := s.run.complete found took })
  | .phase => (s.run.phase, s)
  | .result => (s.run.result, s)
  | .elapsed => (s.run.elapsed, s)
  | .takeSampler => (s.hasSampler, { s with hasSampler := false })
  | .keepSamples found => ((), { s with samples := some found })
  | .samples => (s.samples, s)

end Section

end EngineBench
