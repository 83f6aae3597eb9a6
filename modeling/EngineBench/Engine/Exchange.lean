-- What an engine asks of the host it runs on. An engine is a program that asks, for each of its
-- operations, so what it asks can be told apart from what the host makes of it.
import EngineBench.Bench.Duration
import EngineBench.Dialogue
import EngineBench.Engine.Call
import EngineBench.Engine.Containerd.Request
import EngineBench.Engine.Cri.Request
import EngineBench.Engine.Docker.Request

namespace EngineBench

/-! ## Questions and answers -/

/-- How a process ended and what it wrote. -/
structure Outcome where
  status : WaitStatus
  out : List UInt8
  err : List UInt8
  deriving DecidableEq, Repr

/-- A remote call that failed. -/
structure RpcFault where
  code : RpcCode
  message : String
  deriving DecidableEq, Repr

inductive Ask where
  /-- Runs a program to its end and keeps what it writes. -/
  | exec (program : String) (args : List String)
  /-- Runs a program to its end and throws away what it writes. -/
  | execSilent (program : String) (args : List String)
  /-- Starts a program whose output is read line by line. -/
  | stream (program : String) (args : List String)
  | docker (r : Docker.Request)
  | containerd (r : Containerd.Request)
  | cri (r : Cri.Request)
  /-- Lets time pass. -/
  | rest (d : Duration)

@[reducible] def Ask.Answer : Ask → Type
  | exec _ _ => Except OsError Outcome
  | execSilent _ _ => Except OsError WaitStatus
  | stream _ _ => Except OsError (List UInt8)
  | docker _ => Except ApiError Docker.Reply
  | containerd r => Except RpcFault r.Reply
  | cri r => Except RpcFault r.Reply
  | rest _ => Unit

/-! ## Programs -/

/-- A program that asks its host. -/
abbrev Exchange := Dialogue Ask Ask.Answer

/-- A program that can fail as an engine fails. -/
abbrev Work (α : Type) := ExceptT EngineError Exchange α

namespace Work

variable {α : Type}

/-- Asks one question. -/
def ask (q : Ask) : Work q.Answer := ExceptT.lift (Dialogue.question q)

def ofExcept (r : Except EngineError α) : Work α := ExceptT.mk (.done r)

def containerd (r : Containerd.Request) : Work r.Reply := do
  match ← ask (.containerd r) with
  | .ok reply => return reply
  | .error fault => throw (.rpc fault.code fault.message)

def cri (r : Cri.Request) : Work r.Reply := do
  match ← ask (.cri r) with
  | .ok reply => return reply
  | .error fault => throw (.rpc fault.code fault.message)

/-- Goes on whether or not the work has failed. -/
def attempt (w : Work α) : Work (Except EngineError α) := ExceptT.lift w.run

/-- Does some work and forgets how it ended. -/
def ignore (w : Work α) : Work Unit := do
  let _ ← attempt w
  return ()

/-- Lets a container come to rest before it is removed. -/
def settle : Work Unit := ask (.rest EngineCall.quiescence)

end Work

end EngineBench
