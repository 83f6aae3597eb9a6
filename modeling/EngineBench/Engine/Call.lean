-- What a bench asks of an engine, whatever kind of engine it is.
import EngineBench.Bench.Duration
import EngineBench.Bench.Operation
import EngineBench.Engine.Container

namespace EngineBench

/-- The output of an operation, and how long the engine says that it took. -/
structure Output where
  text : String
  elapsed : Duration
  deriving DecidableEq, Repr

def Output.silent : Output := ⟨"", Duration.zero⟩

inductive EngineCall where
  | info
  | clean
  | create (w : Wanted)
  | operate (op : Operation) (c : Container)
  | close
  deriving DecidableEq, Repr

namespace EngineCall

/-- What a call that succeeds is answered with. -/
@[reducible] def Answer : EngineCall → Type
  | info => String
  | clean => Unit
  | create _ => Container
  | operate _ _ => Output
  | close => Unit

/-- How long an engine is left alone between stopping and removing a container. -/
def quiescence : Duration := Duration.ofMillis 50

/-- The container that a call is about. -/
def target? : EngineCall → Option String
  | create w => some w.name
  | operate _ c => some c.name
  | _ => none

end EngineCall

end EngineBench
