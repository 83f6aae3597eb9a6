-- What a bench does to the world around it, and the programs that benches are made of.
import EngineBench.Bench.Pool
import EngineBench.Bench.State
import EngineBench.Sampler.ControlGroup
import EngineBench.Sampler.ProcessTree
import EngineBench.Sampler.Sampling

namespace EngineBench

/-- The daemon behind an engine: its process, and the names of the processes that count to it. -/
structure DaemonProcess where
  pid : UInt32
  names : List String
  deriving DecidableEq, Repr

/-- Where the samples of a daemon come from. -/
inductive SamplerSource where
  /-- A sampler that was handed to the bench. -/
  | given
  | group (g : ControlGroup)
  | processes (d : DaemonProcess)

/-! ## Acts -/

inductive Act where
  /-- Calls the engine and waits for the answer, whether or not the run is cancelled. -/
  | call (c : EngineCall)
  | rest (d : Duration)
  /-- Lets workers do a job side by side until all of them have ended. -/
  | work (threads iterations : Nat) (job : Job)
  /-- Starts to watch a control group of the host. -/
  | watchGroup (path : String)
  | findDaemon
  /-- Starts a task that samples a daemon. -/
  | startSampling (source : SamplerSource) (interval : Duration)
  /-- Stops a sampling task, and waits for what it hands back. -/
  | stopSampling (task : Nat)

@[reducible] def Act.Answer : Act → Type
  | call c => Except EngineError c.Answer
  | rest _ => Unit
  | work _ _ _ => List Record × Duration
  | watchGroup _ => Attempt ControlGroup
  | findDaemon => Except EngineError DaemonProcess
  | startSampling _ _ => Nat
  | stopSampling _ => Attempt (List Sample)

/-! ## Programs -/

inductive BenchAsk where
  | act (a : Act)
  | within (s : Section)

@[reducible] def BenchAsk.Answer : BenchAsk → Type
  | act a => a.Answer
  | within s => s.Answer

abbrev ActWork (α : Type) := Dialogue Act Act.Answer α

abbrev BenchWork (α : Type) := Dialogue BenchAsk BenchAsk.Answer α

/-- A program that can fail as the whole program fails. -/
abbrev BenchAttempt (α : Type) := ExceptT Failure (Dialogue BenchAsk BenchAsk.Answer) α

namespace BenchWork

variable {α : Type}

def act (a : Act) : BenchWork a.Answer := .ask (.act a) .done

def within (s : Section) : BenchWork s.Answer := .ask (.within s) .done

/-- Answers the sections from the state of the bench and passes its acts on. -/
def attend (s : BenchState) : BenchWork α → ActWork (α × BenchState)
  | .done a => .done (a, s)
  | .ask (.within q) next => let (a, s) := q.perform s; attend s (next a)
  | .ask (.act a) next => .ask a fun answer => attend s (next answer)

end BenchWork

namespace BenchAttempt

variable {α : Type}

def act (a : Act) : BenchAttempt a.Answer := ExceptT.lift (BenchWork.act a)

def within (s : Section) : BenchAttempt s.Answer := ExceptT.lift (BenchWork.within s)

def ofAttempt (r : Attempt α) : BenchAttempt α := ExceptT.mk (.done r)

/-- Calls the engine in the course of an activity. -/
def call (activity : Activity) (c : EngineCall) : BenchAttempt c.Answer := do
  let r ← act (.call c)
  ofAttempt ((Attempt.ofEngine r).during activity)

end BenchAttempt

end EngineBench
