-- The client program of containerd from its early days.
import EngineBench.Engine.Runtime.Bundle
import EngineBench.Engine.Runtime.Listing

namespace EngineBench

structure CtrClient where
  program : String
  deriving DecidableEq, Repr

namespace CtrClient

def make (host : Host.Surroundings) (config : EngineConfig) : Except EngineError CtrClient := do
  return ⟨← host.resolveProgram (config.path.getD "ctr")⟩

def exec (e : CtrClient) (args : List String) : Work String := Command.exec e.program args

def containers (e : CtrClient) (args : List String) : Work String := e.exec ("containers" :: args)

def info (e : CtrClient) : Work String := do
  let client ← e.exec ["--version"]
  let daemon ← e.exec ["version"]
  return "containerd legacy driver (ctr client binary: " ++ e.program ++ ")[version: " ++
    String.ofList (Text.trim client.toList) ++ "][daemon version: " ++
    String.ofList (Text.trim daemon.toList) ++ "]"

/-- A bundle brings its own command, and the client never stays with a container. -/
def create (host : Host.Surroundings) (w : Wanted) : Work Container :=
  Work.ofExcept (Bundle.create host.files w none true)

def run (e : CtrClient) (c : Container) : Work String :=
  Command.execSilent e.program ["containers", "start", c.name, c.image]

def stop (e : CtrClient) (name : String) : Work String := e.containers ["kill", name]

/-- A container that is killed is gone. -/
def remove (e : CtrClient) (name : String) : Work String := e.containers ["kill", name]

def pause (e : CtrClient) (name : String) : Work String := e.containers ["pause", name]

def unpause (e : CtrClient) (name : String) : Work String := e.containers ["resume", name]

def removal (e : CtrClient) : Removal := ⟨e.containers [], e.stop, e.remove, e.unpause⟩

def clean (e : CtrClient) : Work Unit := e.removal.clean

end CtrClient

end EngineBench
