-- What one worker of a bench does, as a program that asks: it passes through the command list once
-- for each of its iterations, each time on a container of its own, and hands in one record for each
-- pass. Failures are counted and never end a pass.
import EngineBench.Bench.Record
import EngineBench.Bench.Workload
import EngineBench.Dialogue
import EngineBench.Engine.Call
import EngineBench.Engine.Error
import EngineBench.Engine.Name

namespace EngineBench

/-- An answer, and how long it was in coming. -/
structure Timed (α : Type) where
  answer : α
  took : Duration

inductive WorkerAsk where
  /-- Asks whether the run is cancelled. -/
  | look
  /-- Calls the engine. The answer is `cancelled` if the run is cancelled before the engine has
  answered. -/
  | call (c : EngineCall)
  /-- Runs a program to its end. -/
  | spawn (program : String) (args : List String)
  /-- Hands in the record of an iteration. -/
  | send (i : Iteration)
  deriving DecidableEq

@[reducible] def WorkerAsk.Answer : WorkerAsk → Type
  | look => Bool
  | call c => Timed (Except EngineError c.Answer)
  | spawn _ _ => Timed (Except OsError WaitStatus)
  | send _ => Unit

abbrev Worker (α : Type) := Dialogue WorkerAsk WorkerAsk.Answer α

namespace Worker

/-! ## One iteration -/

/-- Tries a command list on a container, if there is one; without a container every command fails
at once. A command that succeeds takes the time that the engine states, except that statistics take
the time until the first document is there; one that fails takes the time until it has failed. -/
def tryAll (container : Option Container) (soFar : Iteration) :
    List (String × Operation) → Worker Iteration
  | [] => .done soFar
  | (word, op) :: rest =>
    match container with
    | none => tryAll none ((soFar.failed word).timed word Duration.zero) rest
    | some c => .ask (.call (.operate op c)) fun reply =>
      match reply.answer with
      | .ok output =>
        let time := if op = .stats then reply.took else output.elapsed
        tryAll container (soFar.timed word time) rest
      | .error _ => tryAll container ((soFar.failed word).timed word reply.took) rest

/-- Makes a container and tries the commands on it. -/
def iterate (w : Workload) (name : String) : Worker Iteration :=
  .ask (.call (.create ⟨name, w.image, w.command, w.detached, w.trace⟩)) fun reply =>
    tryAll reply.answer.toOption .empty (Operation.recognised w.commands)

def spawnProgram : String := "ls"

def spawnArguments : List String := ["/tmp"]

/-- The word under which a spawned process is recorded. -/
def spawnWord : String := "run"

/-- Starts one process that does next to nothing. A process that fails has no duration. -/
def spawnOnce : Worker Iteration :=
  .ask (.spawn spawnProgram spawnArguments) fun reply =>
    match reply.answer with
    | .ok status =>
      if status.isSuccess then .done (Iteration.empty.timed spawnWord reply.took)
      else .done (Iteration.empty.failed spawnWord)
    | .error _ => .done (Iteration.empty.failed spawnWord)

/-! ## All iterations -/

/-- Does the iterations from `i` on, `left` of them, and looks before each one whether the run is
cancelled. -/
def repeated (iteration : Nat → Worker Iteration) (i : Nat) : (left : Nat) → Worker Unit
  | 0 => .done ()
  | left + 1 => .ask .look fun cancelled =>
    if cancelled then .done ()
    else (iteration i).bind fun record =>
      .ask (.send record) fun _ => repeated iteration (i + 1) left

end Worker

/-! ## The jobs of a bench -/

/-- What all workers of a bench have in common. -/
inductive Job where
  /-- Takes containers through their life cycle. -/
  | lifecycle (w : Workload)
  /-- Spawns processes. -/
  | spawning
  deriving DecidableEq, Repr

namespace Job

/-- One iteration of one worker. -/
def iteration (thread i : Nat) : Job → Worker Iteration
  | lifecycle w => Worker.iterate w (Name.ofIteration thread i)
  | spawning => Worker.spawnOnce

/-- All that one worker does. -/
def worker (job : Job) (iterations thread : Nat) : Worker Unit :=
  Worker.repeated (fun i => job.iteration thread i) 0 iterations

/-- How many calls or processes an iteration takes at most. -/
def callsPerIteration : Job → Nat
  | lifecycle w => 1 + (Operation.recognised w.commands).length
  | spawning => 1

/-- How many questions a worker asks at most: besides its calls, it looks before each iteration and
hands in a record after it. -/
def effort (job : Job) (iterations : Nat) : Nat := iterations * (job.callsPerIteration + 2)

end Job

end EngineBench
