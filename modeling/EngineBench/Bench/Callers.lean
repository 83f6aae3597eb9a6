-- Several callers of one bench at a time. Each of them runs a program of its own; a section of one
-- program happens at once, and between two sections any other caller may come.
import EngineBench.Bench.Bench

namespace EngineBench

/-! ## What a caller can ask for -/

namespace Bench

inductive Request where
  | run (threads iterations : Nat)
  | stats
  | phase
  | elapsed
  deriving DecidableEq, Repr

inductive Response where
  | run (r : Attempt Unit)
  | stats (records : List Record)
  | phase (p : RunPhase)
  | elapsed (d : Duration)

/-- The program of a caller. -/
def serve (b : Bench) : Request → BenchWork Response
  | .run threads iterations => Response.run <$> (Bench.run threads iterations b).run
  | .stats => Response.stats <$> b.stats
  | .phase => Response.phase <$> b.phase
  | .elapsed => Response.elapsed <$> b.elapsed

end Bench

/-! ## The callers -/

structure Callers where
  state : BenchState
  programs : List (BenchWork Bench.Response)

namespace Callers

/-- The world answers whatever act a caller is about to do. -/
inductive Event where
  | within (caller : Nat)
  | act (caller : Nat) (world : (a : Act) → a.Answer)

/-- Callers of a bench that has not run yet. -/
def start (b : Bench) (hasSampler : Bool) (requests : List Bench.Request) : Callers :=
  ⟨.start hasSampler, requests.map b.serve⟩

/-- One section or one act of a caller, if that is what its program comes to next. -/
def step (s : Callers) : Event → Option Callers
  | .within i =>
    match s.programs[i]? with
    | some (.ask (.within q) next) =>
      let (answer, state) := q.perform s.state
      some ⟨state, s.programs.set i (next answer)⟩
    | _ => none
  | .act i world =>
    match s.programs[i]? with
    | some (.ask (.act a) next) => some { s with programs := s.programs.set i (next (world a)) }
    | _ => none

def steps (s : Callers) (events : List Event) : Option Callers := events.foldlM step s

/-- What a caller has got by now, if its program has ended. -/
def response? (s : Callers) (i : Nat) : Option Bench.Response :=
  match s.programs[i]? with
  | some (.done r) => some r
  | _ => none

end Callers

end EngineBench
